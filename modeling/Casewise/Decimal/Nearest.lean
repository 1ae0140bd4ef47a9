import Casewise.Decimal.Binary

/-!
# Casewise.Decimal.Nearest -- the double nearest to a decimal

`nearest?` rounds a decimal `coefficient * 10 ^ exponent` to the nearest double, a tie going to the
even mantissa. The decimal is put over a common denominator, scaled by the power of two that
leaves fifty-three bits before the point (fewer at the lower end of the range), and rounded once;
all of it in natural numbers.
-/

namespace Casewise.Decimal

/-- The quotient rounded to the nearest natural number, a tie to the even one. -/
def roundQuotient (numerator denominator : Nat) : Nat :=
  let below := numerator / denominator
  let twice := 2 * (numerator % denominator)
  if twice < denominator then below
  else if denominator < twice then below + 1
  else if below % 2 = 0 then below
  else below + 1

/-- The bits of `mantissa * 2 ^ exponent`, the mantissa having at most fifty-three bits and all of
them unless the exponent is the least one; nothing above the greatest double. -/
def bits? (mantissa : Nat) (exponent : Int) : Option Nat :=
  if 971 < exponent then none
  else if mantissa < leastNormal then some mantissa
  else some ((exponent + 1075).toNat * leastNormal + (mantissa - leastNormal))

/-- The bits of the double nearest to a positive fraction. -/
def nearestBits? (numerator denominator : Nat) : Option Nat :=
  let guess : Int := (Nat.log2 numerator : Int) - Nat.log2 denominator - 52
  let at53 (q : Int) : Nat × Nat :=
    (numerator * Nat.pow 2 (-q).toNat, denominator * Nat.pow 2 q.toNat)
  let scaled := at53 guess
  let exponent := max (if scaled.1 < leastNormal * scaled.2 then guess - 1 else guess) (-1074)
  let scaled := at53 exponent
  let mantissa := roundQuotient scaled.1 scaled.2
  if mantissa = 2 * leastNormal then bits? leastNormal (exponent + 1) else bits? mantissa exponent

/-- **The double nearest to a decimal**, or nothing when that is beyond all doubles. Decimals far
outside the range of doubles are told by the number of their digits. -/
def nearest? (coefficient : Nat) (exponent : Int) : Option Float :=
  if coefficient = 0 then some 0.0
  else
    let place : Int := (Nat.toDigits 10 coefficient).length + exponent
    if 310 < place then none
    else if place < -330 then some 0.0
    else
      (nearestBits? (coefficient * Nat.pow 10 exponent.toNat) (Nat.pow 10 (-exponent).toNat)).map
        fun bits => Float.ofBits bits.toUInt64

end Casewise.Decimal
