import Casewise.Decimal.Binary

/-!
# Casewise.Decimal.Shortest -- the fewest digits that read back

Every double owns an interval of real numbers: those that round to it. The ends belong to the
interval when the mantissa is even. The shortest decimal of a double is a decimal in its interval
with the fewest digits, and among those the one nearest to the double; where two are equally near,
the caller says which.

Among the decimals with a given last place only the two neighbours of the value matter: if any
multiple of `10 ^ g` lies in the interval, one of these two does. `shortest` therefore tries the
places from coarse to fine, and takes the first at which a neighbour lies in the interval. All of
it is exact arithmetic on natural numbers; seventeen digits always suffice for a double.
-/

namespace Casewise.Decimal

/-- Which of two equally near decimals is taken. -/
inductive Tie where
  | toEven
  | up
deriving Repr, DecidableEq, Inhabited

/-- **A decimal**: `coefficient * 10 ^ exponent`. -/
structure Scientific where
  coefficient : Nat
  exponent : Int
deriving Repr, DecidableEq, Inhabited

/-- A double seen against the multiples of `10 ^ place`: the value is `value / step` multiples,
and the interval that rounds to the double runs from `low / step` to `high / step`. -/
structure Grid where
  step : Nat
  value : Nat
  low : Nat
  high : Nat
  closed : Bool

/-- Measures `b` in quarters of its last bit, then puts it over the common denominator of the
power of two and the power of ten. -/
def Grid.of (b : Binary) (place : Int) : Grid :=
  let quarter := b.exponent - 2
  let scale := Nat.pow 2 quarter.toNat * Nat.pow 10 (-place).toNat
  { step := Nat.pow 10 place.toNat * Nat.pow 2 (-quarter).toNat
    value := 4 * b.mantissa * scale
    low := (4 * b.mantissa - if b.narrowBelow then 1 else 2) * scale
    high := (4 * b.mantissa + 2) * scale
    closed := b.mantissa % 2 == 0 }

/-- Whether `n` steps lie in the interval. -/
def Grid.holds (g : Grid) (n : Nat) : Bool :=
  if g.closed then g.low ≤ n * g.step && n * g.step ≤ g.high
  else g.low < n * g.step && n * g.step < g.high

/-- The neighbour of the value that lies in the interval; of two, the nearer. -/
def Grid.nearest? (g : Grid) (tie : Tie) : Option Nat :=
  let below := g.value / g.step
  let above := below + 1
  match g.holds below, g.holds above with
  | false, false => none
  | true, false => some below
  | false, true => some above
  | true, true =>
    let down := g.value - below * g.step
    let up := above * g.step - g.value
    if down < up then some below
    else if up < down then some above
    else match tie with
      | .up => some above
      | .toEven => if below % 2 = 0 then some below else some above

/-- Whether the value is below `10 ^ place`. -/
def Binary.isBelow (b : Binary) (place : Int) : Bool :=
  let g := Grid.of b place
  g.value < g.step

/-- The least place whose power of ten is above the value. The first guess comes from the number
of bits and is at most two too low. -/
def Binary.leadingPlace (b : Binary) : Int :=
  let guess := ((Nat.log2 b.mantissa + b.exponent) * 30103).fdiv 100000
  if b.isBelow guess then guess
  else if b.isBelow (guess + 1) then guess + 1
  else guess + 2

/-- Moves trailing zeros of the coefficient into the exponent. -/
def Scientific.trim : Nat → Scientific → Scientific
  | 0, s => s
  | fuel + 1, s =>
    if s.coefficient ≠ 0 ∧ s.coefficient % 10 = 0 then
      trim fuel ⟨s.coefficient / 10, s.exponent + 1⟩
    else s

/-- **The shortest decimal** of the absolute value of a finite double. -/
def shortest (tie : Tie) (b : Binary) : Scientific :=
  if b.mantissa = 0 then ⟨0, 0⟩
  else
    let top := b.leadingPlace
    let found := (List.range 17).findSome? fun (n : Nat) =>
      let place := top - (n + 1)
      ((Grid.of b place).nearest? tie).map fun c => Scientific.mk c place
    (found.getD ⟨0, 0⟩).trim 20

end Casewise.Decimal
