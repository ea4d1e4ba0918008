/-!
# Display formats

How much of a symbol is shown where a comment refers to it.
-/

namespace DocComment

/-- How much of the chain of containers a type is shown with. -/
inductive Qualification where
  | nameOnly
  | containingTypes
  | full
  deriving DecidableEq, Repr, Inhabited

namespace Qualification

def all : List Qualification := [.nameOnly, .containingTypes, .full]

/-- The name under which settings and options know a qualification. -/
def name : Qualification → String
  | .nameOnly => "name_only"
  | .containingTypes => "name_and_containing_types"
  | .full => "fully_qualified"

def ofName? (name : String) : Option Qualification :=
  all.find? (·.name = name)

theorem ofName?_name (q : Qualification) : ofName? q.name = some q := by cases q <;> decide

end Qualification

/-- What is shown of a member apart from its name. -/
structure MemberOptions where
  containingType : Bool := false
  parameters : Bool := false
  explicitInterface : Bool := false
  deriving DecidableEq, Repr, Inhabited

namespace MemberOptions

/-- What is shown of a constructor, whatever the format says of members. -/
def ofConstructor : MemberOptions where
  parameters := true
  explicitInterface := true

end MemberOptions

/-- How a symbol is shown. -/
structure DisplayFormat where
  qualification : Qualification := .containingTypes
  members : MemberOptions := { containingType := true }
  deriving DecidableEq, Repr, Inhabited

namespace DisplayFormat

/-- The format with other options for members. -/
def withMembers (f : DisplayFormat) (members : MemberOptions) : DisplayFormat :=
  { f with members }

@[simp] theorem qualification_withMembers (f : DisplayFormat) (m : MemberOptions) :
    (f.withMembers m).qualification = f.qualification := rfl

@[simp] theorem members_withMembers (f : DisplayFormat) (m : MemberOptions) :
    (f.withMembers m).members = m := rfl

end DisplayFormat

end DocComment
