/-!
# Decimals in binary64

A decimal that is read as a floating-point number becomes the nearest number with a significand
of 53 bits, and of two that are equally near the one with an even significand. `wholeOfDecimal?`
says which whole number comes out, if it is one of at most 63 bits.
-/

namespace DocComment.Binary64

/-- The quotient rounded to the nearest whole number, and to the even one of two. -/
def roundDiv (n d : Nat) : Nat :=
  if 2 * (n % d) < d then n / d
  else if d < 2 * (n % d) then n / d + 1
  else n / d + n / d % 2

/-- The exponent of the greatest power of two that is at most `n / d`. -/
def floorLog (n d : Nat) : Int :=
  let guess : Int := n.log2 - d.log2
  if n * Nat.pow 2 (-guess).toNat < d * Nat.pow 2 guess.toNat then guess - 1 else guess

/-- The significand and the exponent of two of the number nearest to `n / d`, leaving overflow
aside. -/
def nearest (n d : Nat) : Nat × Int :=
  let exponent := max (floorLog n d - 52) (-1074)
  (roundDiv (n * Nat.pow 2 (-exponent).toNat) (d * Nat.pow 2 exponent.toNat), exponent)

/-- The whole number `significand * 2 ^ exponent`, if it is whole. -/
def whole? (significand : Nat) (exponent : Int) : Option Nat :=
  let divisor := Nat.pow 2 (-exponent).toNat
  if significand % divisor = 0 then some (significand / divisor * Nat.pow 2 exponent.toNat) else none

/-- The whole number nearest to which `mantissa * 10 ^ exponent` is read, if it is whole and has at
most 63 bits. A decimal far out of range is not computed. -/
def wholeOfDecimal? (mantissa : Nat) (exponent : Int) : Option Nat :=
  let magnitude : Int := (Nat.toDigits 10 mantissa).length + exponent
  if mantissa = 0 ∨ magnitude < -400 then some 0
  else if 20 < magnitude then none
  else
    let (significand, exponent) :=
      nearest (mantissa * Nat.pow 10 exponent.toNat) (Nat.pow 10 (-exponent).toNat)
    (whole? significand exponent).filter (· < Nat.pow 2 63)

end DocComment.Binary64
