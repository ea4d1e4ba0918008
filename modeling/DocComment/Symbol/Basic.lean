/-!
# Symbols

A symbol is what a documentation ID names: a namespace, a type, or a member of a type.
-/

namespace DocComment

/-- What a symbol is. -/
inductive SymbolKind where
  | nameSpace
  | type
  | method
  | property
  | field
  | event
  | ctor
  deriving DecidableEq, Repr, Inhabited

namespace SymbolKind

def all : List SymbolKind := [.nameSpace, .type, .method, .property, .field, .event, .ctor]

/-- The short name of a kind. It starts a documentation ID, except that constructors are written as
methods. -/
def code : SymbolKind → String
  | .nameSpace => "N"
  | .type => "T"
  | .method => "M"
  | .property => "P"
  | .field => "F"
  | .event => "E"
  | .ctor => "ctor"

def ofCode? (code : String) : Option SymbolKind :=
  all.find? (·.code = code)

theorem ofCode?_code (k : SymbolKind) : ofCode? k.code = some k := by cases k <;> decide

end SymbolKind

/-- A declared symbol. -/
structure Symbol where
  /-- The ID as it was given. -/
  documentationId : String
  kind : SymbolKind
  /-- The simple name; that of a constructor is its type's. -/
  name : String
  /-- The segments of the namespace around it. -/
  nameSpace : List String := []
  /-- The types around it, outermost first. -/
  containingTypes : List String := []
  /-- The types of the parameters as they stand in the ID, if the symbol takes any. -/
  parameters : Option (List String) := none
  /-- The interface whose member is implemented explicitly. -/
  explicitInterface : Option String := none
  deriving DecidableEq, Repr, Inhabited

namespace Symbol

def isConstructor (s : Symbol) : Bool :=
  s.kind = .ctor

end Symbol

/-- Names with a dot between each and the next. -/
def dotted (names : List String) : String :=
  ".".intercalate names

end DocComment
