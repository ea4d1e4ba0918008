import DocComment.DisplayFormat
import DocComment.Symbol.TypeName

/-!
# Display of symbols

The runs that show a symbol in a display format. Where a fully qualified name is wanted, a namespace
that is imported at the place of the comment is left out.
-/

namespace DocComment

/-- Why a symbol cannot be shown. -/
inductive DisplayError where
  /-- The name of a type is wanted, and there is no type. -/
  | noTypeName
  deriving DecidableEq, Repr

/-- Names as runs of one kind, with dots between them. -/
def dottedRuns (kind : RunKind) : List String → List Run
  | [] => []
  | [name] => [⟨kind, name⟩]
  | name :: rest => ⟨kind, name⟩ :: Run.dot :: dottedRuns kind rest

/-- The runs that show the innermost of some types. -/
def typeRuns (format : DisplayFormat) (imported nameSpace types : List String) :
    Except DisplayError (List Run) :=
  match format.qualification with
  | .nameOnly =>
    match types.getLast? with
    | none => .error .noTypeName
    | some type => .ok [⟨.typeName, type⟩]
  | .containingTypes => .ok (dottedRuns .typeName types)
  | .full =>
    if nameSpace = [] ∨ dotted nameSpace ∈ imported then .ok (dottedRuns .typeName types)
    else
      .ok (dottedRuns .namespaceName nameSpace ++ Run.dot :: dottedRuns .typeName types)

namespace Symbol

/-- The runs that show the types of parameters, with commas between them. -/
def parameterRuns : List String → List Run
  | [] => []
  | [type] => TypeName.runs type
  | type :: rest => TypeName.runs type ++ Run.punctuation "," :: Run.space :: parameterRuns rest

/-- The runs that show the parameters of a symbol, if it has any: in brackets for a property, in
parentheses otherwise. -/
def parameterListRuns (s : Symbol) : List Run :=
  match s.parameters with
  | none => []
  | some types =>
    let (left, right) := if s.kind = .property then ("[", "]") else ("(", ")")
    Run.punctuation left :: parameterRuns types ++ [Run.punctuation right]

/-- The runs that show the interface of an explicit implementation, by its simple name. -/
def interfaceRuns (s : Symbol) : List Run :=
  match s.explicitInterface with
  | none => []
  | some interface =>
    if interface = "" then []
    else
      let parts := Text.separated '.' interface.toList
      [⟨.typeName, String.ofList (parts.getLast?.getD [])⟩, Run.dot]

/-- The runs that show a member, apart from its parameters. -/
def memberRuns (s : Symbol) (format : DisplayFormat) (imported : List String) :
    Except DisplayError (List Run) := do
  let container ←
    if format.members.containingType ∧ s.containingTypes ≠ [] then
      (typeRuns format imported s.nameSpace s.containingTypes).map (· ++ [Run.dot])
    else pure []
  let interface := if format.members.explicitInterface then s.interfaceRuns else []
  return container ++ interface ++ [⟨.memberName, s.name⟩]

/-- The runs that show a symbol where the namespaces `imported` are in scope. -/
def runs (s : Symbol) (format : DisplayFormat) (imported : List String) :
    Except DisplayError (List Run) :=
  let parameters := if format.members.parameters then s.parameterListRuns else []
  match s.kind with
  | .nameSpace =>
    if format.qualification = .full then
      .ok (dottedRuns .namespaceName (s.nameSpace ++ [s.name]))
    else .ok [⟨.namespaceName, s.name⟩]
  | .type => typeRuns format imported s.nameSpace (s.containingTypes ++ [s.name])
  | .ctor => (typeRuns format imported s.nameSpace s.containingTypes).map (· ++ parameters)
  | _ => (s.memberRuns format imported).map (· ++ parameters)

end Symbol

end DocComment
