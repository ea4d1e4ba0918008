import DocComment.Text.Blank
import DocComment.Text.Digit
import DocComment.Text.Separated

/-!
# Whole numbers

A whole number is written with the digits `0` to `9`, perhaps with a sign, with zeros in front, with
single low lines between digits, with a point and zeros behind it, and with blanks around it all.
-/

namespace DocComment.Text

/-- The most digits that a number may have. -/
def maxDigits : Nat := 4300

/-- Whether blanks of this kind may stand around a number. The separators U+001C to U+001F may
not. -/
def isMargin (c : Char) : Bool :=
  isBlank c && !(0x1C ≤ c.toNat && c.toNat ≤ 0x1F)

/-- The text from the first digit above zero or minus on, from the last character before a point if
there is none of these, or else the last character. Zeros and low lines may come in front. `last` is
the character before the text. -/
def skipZeros? (last : Char) : List Char → Option (List Char)
  | [] => some [last]
  | c :: rest =>
    if c = '0' ∨ c = '_' then skipZeros? c rest
    else if c = '.' then some (last :: c :: rest)
    else if c = '-' ∨ isAsciiDigit c then some (c :: rest)
    else none

/-- The text without the zeros that it starts with. It must start with a digit. -/
def withoutZeros? : List Char → Option (List Char)
  | [] => none
  | c :: rest =>
    if c = '0' then skipZeros? c rest
    else if isAsciiDigit c then some (c :: rest)
    else none

/-- The text without a point with nothing but zeros behind it. -/
def withoutFraction (s : List Char) : List Char :=
  match s.dropWhile (· ≠ '.') with
  | _ :: '0' :: zeros => if zeros.all (· = '0') then s.takeWhile (· ≠ '.') else s
  | _ => s

/-- The text without low lines, unless two stand together or one stands at an end. -/
def withoutLowLines (s : List Char) : List Char :=
  let parts := separated '_' s
  if [] ∈ parts then s else parts.flatten

/-- The number that digits spell. They start with zero only if there is no other. -/
def natural? (s : List Char) : Option Nat :=
  if s ≠ [] ∧ s.all isAsciiDigit ∧ (s.head? = some '0' → s.length = 1) ∧ s.length ≤ maxDigits then
    some (decimalValue s)
  else none

/-- The number that digits spell, perhaps with a minus in front. -/
def signed? : List Char → Option Int
  | '-' :: rest => (natural? rest).map fun n => -(n : Int)
  | s => (natural? s).map fun n => (n : Int)

/-- The digits of a number that is written without a sign. A minus may be left behind zeros. -/
def plainDigits? (s : List Char) : Option (List Char) :=
  (withoutZeros? s).map fun s => withoutLowLines (withoutFraction s)

/-- The whole number that a text spells. -/
def wholeNumber? (s : List Char) : Option Int :=
  let start := s.dropWhile isMargin
  match (start.reverse.dropWhile isMargin).reverse with
  | '-' :: rest => ((plainDigits? rest).bind natural?).map fun n => -(n : Int)
  | '+' :: rest => (plainDigits? rest).bind signed?
  | rest => (plainDigits? rest).bind signed?

end DocComment.Text
