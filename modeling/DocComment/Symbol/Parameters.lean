import DocComment.Text.Blank

/-!
# Lists of parameters

The types of parameters are separated by commas. A comma inside braces or brackets belongs to a
type.
-/

namespace DocComment.Parameters

/-- How much deeper in braces and brackets the text is after `c`. -/
def step (c : Char) : Int :=
  if c = '\x7b' ∨ c = '[' then 1
  else if c = '\x7d' ∨ c = ']' then -1
  else 0

/-- The parts of a text between the commas at depth zero, when the text starts at depth `depth`. -/
def cutFrom (depth : Int) : List Char → List (List Char)
  | [] => [[]]
  | c :: rest =>
    if c = ',' ∧ depth = 0 then [] :: cutFrom depth rest
    else Text.consToFirst c (cutFrom (depth + step c) rest)

/-- The types in a list of parameters, without blanks around them. The empty text lists none. -/
def split (s : List Char) : List (List Char) :=
  if s = [] then [] else (cutFrom 0 s).map Text.trim

def ofString (s : String) : List String :=
  (split s.toList).map String.ofList

end DocComment.Parameters
