import DocComment.Symbol.Arity
import DocComment.Symbol.Basic
import DocComment.Symbol.Parameters
import DocComment.Text.Quoted
import DocComment.Text.Separated

/-!
# Documentation IDs

An ID is a letter for the kind, a colon, a dotted name, perhaps a list of parameters in parentheses,
and perhaps `~` and a return type. `WrittenId.ofText?` cuts an ID into these parts, and
`Symbol.ofId` makes a symbol of them. An ID does not say where its namespace ends and its types
begin, so `Symbol.ofId` is told the names of known types.
-/

namespace DocComment

/-- Why a text is not the ID of a symbol. -/
inductive IdError where
  /-- The text does not follow the grammar of IDs. -/
  | invalid (id : String)
  /-- The ID is that of a constructor, but names no type. -/
  | constructorWithoutType (id : String)
  deriving DecidableEq, Repr

def IdError.message : IdError → String
  | .invalid id => "Invalid documentation ID: " ++ String.ofList (Text.quoted id.toList)
  | .constructorWithoutType id =>
    "Constructor without a type: " ++ String.ofList (Text.quoted id.toList)

/-! ### The parts of an ID -/

/-- The parts of an ID as they are written. -/
structure WrittenId where
  kind : SymbolKind
  /-- The segments of the dotted name but the last. -/
  container : List String
  /-- The last segment of the dotted name. -/
  name : String
  /-- What stands in parentheses. -/
  parameters : Option (List Char)
  deriving DecidableEq, Repr

namespace WrittenId

/-- The kind that an ID with the first letter `c` names. -/
def kindOf? (c : Char) : Option SymbolKind :=
  SymbolKind.ofCode? (String.ofList [c])

/-- Whether a dotted name goes on with `c`. -/
def isNameChar (c : Char) : Bool :=
  c ≠ '(' && c ≠ '~'

/-- Whether the text is empty or a return type: `~` and some text on one line. -/
def isReturn : List Char → Bool
  | [] => true
  | c :: rest => c = '~' && !rest.isEmpty && !rest.contains '\n'

/-- The text up to the first `)` after which only a return type may follow. It is on one line. -/
def untilClose? : List Char → Option (List Char)
  | [] => none
  | c :: rest =>
    if c = ')' ∧ isReturn rest then some []
    else if c = '\n' then none
    else (untilClose? rest).map (c :: ·)

/-- What stands in parentheses after the name of an ID, if there are any. -/
def parameters? : List Char → Option (Option (List Char))
  | [] => some none
  | c :: rest =>
    if c = '(' then (untilClose? rest).map some
    else if isReturn (c :: rest) then some none
    else none

/-- The parts of an ID. No segment of its name may be empty. -/
def ofText? : List Char → Option WrittenId
  | letter :: ':' :: s =>
    let segments := (Text.separated '.' (s.takeWhile isNameChar)).map String.ofList
    match kindOf? letter, parameters? (s.dropWhile isNameChar) with
    | some kind, some parameters =>
      if "" ∈ segments then none
      else some ⟨kind, segments.dropLast, segments.getLast?.getD "", parameters⟩
    | _, _ => none
  | _ => none

/-! ### Namespace, types and interface -/

/-- Cuts segments in front of the first one that completes the name of a known type. `before` are
the segments already passed. -/
def cutAtType? (typeNames : List String) (before : List String) :
    List String → Option (List String × List String)
  | [] => none
  | segment :: rest =>
    if dotted (before ++ [segment]) ∈ typeNames then some (before, segment :: rest)
    else cutAtType? typeNames (before ++ [segment]) rest

/-- The namespace and the types in the container of a symbol. Where no type is known, the last
segment is the type of a member, and the whole container of a type is a namespace. -/
def cutContainer (typeNames : List String) (kind : SymbolKind) (container : List String) :
    List String × List String :=
  match cutAtType? typeNames [] container with
  | some cut => cut
  | none =>
    if kind = .type then (container, [])
    else (container.dropLast, container.getLast?.toList)

/-- The names of constructors, of objects and of types. -/
def constructorNames : List String := ["#ctor", "#cctor"]

/-- The name of a member and the interface that it is implemented for. In a name with `#`, the part
after the last `#` is the name and the rest is the interface, written with `#` for dots. -/
def cutInterface (name : String) : String × Option String :=
  let parts := (Text.separated '#' name.toList).map String.ofList
  match parts.dropLast with
  | [] => (name, none)
  | interface => (parts.getLast?.getD "", some (Arity.stripped (dotted interface)))

end WrittenId

namespace Symbol

open WrittenId

/-- The symbol with a documentation ID. `typeNames` are the full names of known types. -/
def ofId (id : String) (typeNames : List String) : Except IdError Symbol :=
  match WrittenId.ofText? (Text.trim id.toList) with
  | none => .error (.invalid id)
  | some written =>
    let (nameSpace, types) := cutContainer typeNames written.kind written.container
    let containingTypes := types.map Arity.stripped
    let parameters := written.parameters.map fun p => (Parameters.split p).map String.ofList
    if written.kind = .nameSpace then
      .ok {
        documentationId := id, kind := .nameSpace, name := written.name
        nameSpace := written.container }
    else if written.kind = .method ∧ written.name ∈ constructorNames then
      match types.getLast? with
      | none => .error (.constructorWithoutType id)
      | some type =>
        .ok {
          documentationId := id, kind := .ctor, name := Arity.stripped type, nameSpace
          containingTypes, parameters := some (parameters.getD []) }
    else
      let (name, explicitInterface) := cutInterface written.name
      .ok {
        documentationId := id, kind := written.kind, name := Arity.stripped name, nameSpace
        containingTypes, explicitInterface
        parameters := if written.kind = .method then some (parameters.getD []) else parameters }

end Symbol

end DocComment
