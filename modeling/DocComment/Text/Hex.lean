/-!
# Numbers in base sixteen

Digits of base sixteen are written in lower case and read in either case. `number?_hexDigits`:
what is written with enough digits reads back.
-/

namespace DocComment.Text

/-- The digit of a value below sixteen. -/
def hexDigit (n : Nat) : Char :=
  if n < 10 then Char.ofNat ('0'.toNat + n) else Char.ofNat ('a'.toNat + (n - 10))

/-- The last `width` digits of `n`. -/
def hexDigits : Nat → Nat → List Char
  | 0, _ => []
  | width + 1, n => hexDigits width (n / 16) ++ [hexDigit (n % 16)]

def hexValue? (c : Char) : Option Nat :=
  if '0' ≤ c ∧ c ≤ '9' then some (c.toNat - '0'.toNat)
  else if 'a' ≤ c ∧ c ≤ 'f' then some (c.toNat - 'a'.toNat + 10)
  else if 'A' ≤ c ∧ c ≤ 'F' then some (c.toNat - 'A'.toNat + 10)
  else none

/-- The number that digits spell after those of `n`, in a base of at most sixteen. -/
def numberFrom? (base n : Nat) : List Char → Option Nat
  | [] => some n
  | c :: rest =>
    match hexValue? c with
    | none => none
    | some d => if d < base then numberFrom? base (base * n + d) rest else none

/-- The number that digits spell in a base of at most sixteen. There must be a digit. -/
def number? (base : Nat) (digits : List Char) : Option Nat :=
  if digits = [] then none else numberFrom? base 0 digits

/-- The character with a code point. -/
def charOf? (n : Nat) : Option Char :=
  if h : n.isValidChar then some (Char.ofNatAux n h) else none

theorem length_hexDigits (width n : Nat) : (hexDigits width n).length = width := by
  induction width generalizing n with
  | zero => rfl
  | succ width ih => simp [hexDigits, ih]

theorem hexValue?_hexDigit : ∀ n < 16, hexValue? (hexDigit n) = some n := by decide

theorem numberFrom?_append (base n : Nat) (a b : List Char) :
    numberFrom? base n (a ++ b) = (numberFrom? base n a).bind (numberFrom? base · b) := by
  induction a generalizing n with
  | nil => rfl
  | cons c a ih =>
    simp only [List.cons_append, numberFrom?]
    split
    · rfl
    · split
      · exact ih _
      · rfl

theorem numberFrom?_hexDigits (width n start : Nat) :
    numberFrom? 16 start (hexDigits width n) = some (Nat.pow 16 width * start + n % Nat.pow 16 width) := by
  induction width generalizing n start with
  | zero => simp [hexDigits, numberFrom?, Nat.mod_one]
  | succ width ih =>
    have hlt : n % 16 < 16 := Nat.mod_lt _ (by decide)
    rw [hexDigits, numberFrom?_append, ih, Option.bind_some, numberFrom?,
      hexValue?_hexDigit _ hlt]
    simp only [hlt, if_true, numberFrom?, Option.some.injEq]
    have hpow : Nat.pow 16 (width + 1) = 16 * Nat.pow 16 width := Nat.mul_comm _ _
    rw [hpow, Nat.mod_mul, Nat.mul_add, Nat.mul_assoc]
    omega

theorem number?_hexDigits {width n : Nat} (hw : 0 < width) (hn : n < Nat.pow 16 width) :
    number? 16 (hexDigits width n) = some n := by
  have hne : hexDigits width n ≠ [] := fun h => by
    have := length_hexDigits width n
    rw [h] at this
    exact absurd this (Nat.ne_of_lt hw)
  rw [number?, if_neg hne, numberFrom?_hexDigits, Nat.mod_eq_of_lt hn]
  simp

end DocComment.Text
