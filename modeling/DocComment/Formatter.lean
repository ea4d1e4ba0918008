import DocComment.Fragment
import DocComment.Symbol.Imports
import DocComment.Text.Quoted
import DocComment.Walk

/-!
# Formatting comments

A formatter turns the text of a documentation comment into runs, or into the text of the runs.
-/

namespace DocComment

/-- Why a comment cannot be formatted. -/
inductive FormatError where
  /-- The comment is not a well-formed fragment of markup. -/
  | malformed
  /-- What should be the local name of an element is none. -/
  | unresolvedName (name : String)
  /-- A symbol that the comment refers to cannot be shown. -/
  | display (cause : DisplayError)
  deriving DecidableEq, Repr

/-- The error of a comment whose walk ends early. -/
def FormatError.ofWalk : WalkError DisplayError → FormatError
  | .unresolvedName name => .unresolvedName name
  | .reference cause => .display cause

def FormatError.message : FormatError → String
  | .malformed => "Malformed documentation comment"
  | .unresolvedName name => "Invalid tag name " ++ String.ofList (Text.quoted name.toList)
  | .display .noTypeName => "A symbol without a type cannot be shown"

/-- How comments are formatted. -/
structure Formatter where
  /-- Whether identifiers are looked up. -/
  resolves : Bool := true
  /-- Whether symbols are shown, and not only their identifiers. -/
  renders : Bool := true
  lineBreak : String := "\r\n"
  /-- How symbols are shown where a call does not say it. -/
  format : DisplayFormat := {}
  deriving DecidableEq, Repr, Inhabited

namespace Formatter

def nodeRuns (lineBreak : String) (view : View) (node : Xml.Node Xml.Name) :
    Except (WalkError DisplayError) (List Run) :=
  (Accumulator.appendNode view.referenceRuns { lineBreak } node).map Accumulator.runs

def viewedRuns (f : Formatter) (view : View) (raw : String) : Except FormatError (List Run) :=
  match Fragment.parse? raw with
  | none => .error .malformed
  | some root => (nodeRuns f.lineBreak view root).mapError .ofWalk

/-- The view of references in a symbol table. -/
def view (f : Formatter) (table : Option SymbolTable) : View where
  table
  resolves := f.resolves
  renders := f.renders
  format := f.format

/-- The text of a comment whose references are looked up in a symbol table. -/
def formatToString (f : Formatter) (raw : String) (table : Option SymbolTable) :
    Except FormatError String :=
  (f.viewedRuns (f.view table) raw).map Run.textOf

/-- The runs of a comment at a position in the source that a semantic model describes. Names that
are in scope there are shortened. -/
def formatToRuns (f : Formatter) (raw : String) (model : Option SemanticModel)
    (position : Option Int) (format : Option DisplayFormat) : Except FormatError (List Run) :=
  let view := {
    f.view (model.map SemanticModel.table) with
    format := format.getD f.format
    imported := (model.map (·.importsAt position)).getD [] }
  f.viewedRuns view raw

end Formatter

end DocComment
