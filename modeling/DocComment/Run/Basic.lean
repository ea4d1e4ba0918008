/-!
# Runs

The output is a list of runs, each a piece of text of one kind. The text of a list of runs is their
texts joined.
-/

namespace DocComment

/-- What a run represents. -/
inductive RunKind where
  | text
  | space
  | lineBreak
  | keyword
  | punctuation
  | namespaceName
  | typeName
  | memberName
  | parameterName
  deriving DecidableEq, Repr, Inhabited

namespace RunKind

def all : List RunKind :=
  [.text, .space, .lineBreak, .keyword, .punctuation, .namespaceName, .typeName, .memberName,
    .parameterName]

/-- The name under which listings show a kind. -/
def name : RunKind → String
  | .text => "text"
  | .space => "space"
  | .lineBreak => "line_break"
  | .keyword => "keyword"
  | .punctuation => "punctuation"
  | .namespaceName => "namespace_name"
  | .typeName => "type_name"
  | .memberName => "member_name"
  | .parameterName => "parameter_name"

def ofName? (name : String) : Option RunKind :=
  all.find? (·.name = name)

/-- Whether runs of this kind only keep other runs apart. -/
def isWhitespace : RunKind → Bool
  | .space | .lineBreak => true
  | _ => false

theorem mem_all (k : RunKind) : k ∈ all := by cases k <;> decide

theorem ofName?_name (k : RunKind) : ofName? k.name = some k := by cases k <;> decide

end RunKind

/-- A piece of output. -/
structure Run where
  kind : RunKind
  text : String
  deriving DecidableEq, Repr, Inhabited

namespace Run

def plain (s : String) : Run := ⟨.text, s⟩

def space : Run := ⟨.space, " "⟩

def punctuation (s : String) : Run := ⟨.punctuation, s⟩

/-- The dot between the parts of a name. -/
def dot : Run := punctuation "."

/-- The texts of runs, joined. -/
def textOf (runs : List Run) : String :=
  String.join (runs.map Run.text)

@[simp] theorem textOf_nil : textOf [] = "" := rfl

@[simp] theorem toList_textOf (runs : List Run) :
    (textOf runs).toList = runs.flatMap (·.text.toList) := by
  simp [textOf, String.toList_join, List.flatMap_map]

theorem textOf_cons (r : Run) (rs : List Run) : textOf (r :: rs) = r.text ++ textOf rs := by
  apply String.toList_inj.mp
  simp

theorem textOf_singleton (r : Run) : textOf [r] = r.text := by
  rw [textOf_cons, textOf_nil, String.append_empty]

theorem textOf_append (a b : List Run) : textOf (a ++ b) = textOf a ++ textOf b := by
  apply String.toList_inj.mp
  simp

end Run

end DocComment
