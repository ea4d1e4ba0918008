import DocComment.Symbol.Table

/-!
# References

Some elements refer to a symbol or a parameter by an identifier in one of their attributes. The
identifier of a symbol is its ID, so it starts with one character and a colon.
-/

namespace DocComment

/-- The elements that refer to something. -/
inductive ReferenceTag where
  | see
  | seealso
  | paramref
  | typeparamref
  deriving DecidableEq, Repr, Inhabited

namespace ReferenceTag

def all : List ReferenceTag := [.see, .seealso, .paramref, .typeparamref]

def name : ReferenceTag → String
  | .see => "see"
  | .seealso => "seealso"
  | .paramref => "paramref"
  | .typeparamref => "typeparamref"

/-- The attribute that holds the identifier. -/
def identifyingAttribute : ReferenceTag → String
  | .see | .seealso => "cref"
  | .paramref | .typeparamref => "name"

def ofName? (name : String) : Option ReferenceTag :=
  all.find? (·.name = name)

theorem ofName?_name (t : ReferenceTag) : ofName? t.name = some t := by cases t <;> decide

end ReferenceTag

namespace Reference

/-- The identifier without the one character and the colon that it starts with, unless that
character is a line feed. -/
def withoutMarker (identifier : String) : String :=
  match identifier.toList with
  | c :: ':' :: rest => if c = '\n' then identifier else String.ofList rest
  | _ => identifier

theorem withoutMarker_of_toList {identifier : String} {c : Char} {rest : List Char}
    (h : identifier.toList = c :: ':' :: rest) :
    withoutMarker identifier = if c = '\n' then identifier else String.ofList rest := by
  rw [withoutMarker, h]
  rfl

/-- Whether the identifier has a character and a colon at its start, as all IDs have. -/
def hasMarker (identifier : String) : Bool :=
  match identifier.toList with
  | _ :: ':' :: _ => true
  | _ => false

def lookup (table : SymbolTable) (identifier : String) : Option Symbol :=
  if hasMarker identifier then table.resolve identifier else none

end Reference

end DocComment
