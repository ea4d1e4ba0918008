import DocComment.Text.Digit

/-!
# Arity of generic names

The name of a generic type ends in a backtick and the number of its type parameters, that of a
generic method in two backticks and the number.
-/

namespace DocComment.Arity

/-- The mark in front of an arity. -/
def mark : Char := '\x60'

/-- A reversed name without the arity that it starts with. -/
def stripReversed (s : List Char) : List Char :=
  match s.takeWhile Text.isDigit, s.dropWhile Text.isDigit with
  | _ :: _, c :: rest =>
    if c = mark then
      match rest with
      | d :: rest' => if d = mark then rest' else rest
      | [] => []
    else s
  | _, _ => s

/-- The name without the arity that it ends with. One line feed may follow the arity, and stays. -/
def strip (s : List Char) : List Char :=
  match s.reverse with
  | '\n' :: rest => (stripReversed rest).reverse ++ ['\n']
  | rest => (stripReversed rest).reverse

def stripped (name : String) : String :=
  String.ofList (strip name.toList)

end DocComment.Arity
