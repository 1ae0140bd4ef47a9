import Casewise.Decimal.Shortest

/-!
# Casewise.Decimal.Layout -- how the digits of a double are set

The digits of a double are chosen once (`shortest`); what differs between one written form and
another is their layout. A `Layout` says for which magnitudes the digits are set around a decimal
point, how an exponent is written otherwise, and which of two equally near digit strings is taken.
Positional text always has a fraction, so that it never looks like an integer.
-/

namespace Casewise.Decimal

/-- **A layout of digits.** `d.ddd` times a power of ten below `10 ^ mostPoint` and not below
`10 ^ (leastPoint - 1)` is written positionally. -/
structure Layout where
  leastPoint : Int
  mostPoint : Int
  /-- Whether an exponent that is not negative carries a sign. -/
  plusSign : Bool
  tie : Tie
deriving Repr, DecidableEq, Inhabited

namespace Layout

/-- The digits with the point `point` places after the start. -/
def positional (digits : List Char) (point : Int) : List Char :=
  if point ≤ 0 then '0' :: '.' :: (List.replicate (-point).toNat '0' ++ digits)
  else
    let whole := digits.take point.toNat
    let fraction := digits.drop point.toNat
    whole ++ List.replicate (point.toNat - digits.length) '0' ++
      '.' :: (if fraction.isEmpty then ['0'] else fraction)

/-- The first digit, the point and the other digits if there are any, and the exponent. -/
def scientific (layout : Layout) (digits : List Char) (point : Int) : List Char :=
  let exponent := point - 1
  let sign := if exponent < 0 then ['-'] else if layout.plusSign then ['+'] else []
  let fraction := digits.drop 1
  digits.take 1 ++ (if fraction.isEmpty then [] else '.' :: fraction) ++
    'e' :: (sign ++ Nat.toDigits 10 exponent.natAbs)

/-- The text of a finite double. -/
def ofBinary (layout : Layout) (b : Binary) : List Char :=
  let s := shortest layout.tie b
  let digits := Nat.toDigits 10 s.coefficient
  let point := digits.length + s.exponent
  (if b.negative then ['-'] else []) ++
    if s.coefficient = 0 then ['0', '.', '0']
    else if layout.leastPoint ≤ point ∧ point ≤ layout.mostPoint then positional digits point
    else layout.scientific digits point

end Layout

end Casewise.Decimal
