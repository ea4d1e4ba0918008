import DocComment.Reference
import DocComment.Symbol.Display

/-!
# Views

A view shows references. A reference to a declared symbol is shown as the symbol; any other is
shown as its identifier, without the character and colon that an ID starts with.
-/

namespace DocComment

/-- What references are shown with. -/
structure View where
  /-- The table of declared symbols, if there is one. -/
  table : Option SymbolTable := none
  /-- Whether identifiers are looked up in the table. -/
  resolves : Bool := true
  /-- Whether symbols are shown, and not only their identifiers. -/
  renders : Bool := true
  format : DisplayFormat := {}
  /-- The namespaces in scope. -/
  imported : List String := []

namespace View

/-- The format that a symbol is shown in. Constructors are always shown with their parameters. -/
def formatFor (v : View) (s : Symbol) : DisplayFormat :=
  if s.isConstructor then v.format.withMembers MemberOptions.ofConstructor else v.format

/-- The runs that show a symbol, or nothing if there is no symbol or symbols are not shown. -/
def symbolRuns (v : View) (symbol : Option Symbol) : Except DisplayError (Option (List Run)) :=
  match symbol with
  | none => .ok none
  | some s => if v.renders then (s.runs (v.formatFor s) v.imported).map some else .ok none

/-- The declared symbol that an identifier refers to. -/
def lookup (v : View) (identifier : String) : Option Symbol :=
  if v.resolves then v.table.bind (Reference.lookup · identifier) else none

def referenceRuns (v : View) (identifier : String) : Except DisplayError (List Run) :=
  (v.symbolRuns (v.lookup identifier)).map fun runs =>
    runs.getD [Run.plain (Reference.withoutMarker identifier)]

end View

end DocComment
