/-!
# Casewise.Decimal.Scaled -- reading a decimal by scaling

A decimal literal is read as a significand of at most sixty-four bits and a power of ten. The
significand is rounded to a double, and that double is multiplied or divided once by the power of
ten, itself a double; powers beyond `10 ^ 308` take one division by `10 ^ 308` at a time. The
result is the nearest double whenever the significand has at most fifty-three bits and the power
is exact, and may be one off otherwise: a reader that promises less than the nearest double and
is quick for it.

Digits that no longer fit are dropped. Among the integer digits each dropped one counts towards
the power of ten; among the fraction digits it does not.
-/

namespace Casewise.Decimal

/-- **A significand and a power of ten**, the significand below `2 ^ 64`. -/
structure Scaled where
  significand : Nat
  power : Int
deriving Repr, DecidableEq, Inhabited

namespace Scaled

/-- Appends one digit if the result still fits sixty-four bits, that is, stays below `2 ^ 64`. -/
def push? (significand digit : Nat) : Option Nat :=
  if significand * 10 + digit < 0x10000000000000000 then some (significand * 10 + digit) else none

/-- Takes integer digits while they fit; the digits left over each count a power of ten. -/
def ofInteger (significand : Nat) : List Nat → Scaled
  | [] => ⟨significand, 0⟩
  | digit :: rest =>
    match push? significand digit with
    | some next => ofInteger next rest
    | none => ⟨significand, rest.length + 1⟩

/-- Takes fraction digits while they fit and drops the rest. -/
def pushFraction (s : Scaled) : List Nat → Scaled
  | [] => s
  | digit :: rest =>
    match push? s.significand digit with
    | some next => pushFraction ⟨next, s.power - 1⟩ rest
    | none => s

/-- A power of ten as a double; exact up to `10 ^ 22`, nearest up to `10 ^ 308`. -/
def powerOfTen (n : Nat) : Float := Float.ofScientific 1 false n

/-- Divides by `10 ^ n`, by `10 ^ 308` at most `fuel` times and then by what is left. -/
def divide : Nat → Float → Nat → Float
  | 0, x, n => if n ≤ 308 then x / powerOfTen n else 0.0
  | fuel + 1, x, n =>
    if n ≤ 308 then x / powerOfTen n else divide fuel (x / powerOfTen 308) (n - 308)

/-- **The double read**, or nothing when it is beyond all of them. Three divisions by `10 ^ 308`
take every significand to zero, so further ones change nothing. -/
def toFloat? (s : Scaled) : Option Float :=
  let x := s.significand.toUInt64.toFloat
  if s.power < 0 then some (divide 3 x s.power.natAbs)
  else if s.power ≤ 308 then
    let y := x * powerOfTen s.power.natAbs
    if y.isFinite then some y else none
  else if s.significand = 0 then some 0.0
  else none

end Scaled

end Casewise.Decimal
