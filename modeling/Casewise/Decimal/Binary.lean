/-!
# Casewise.Decimal.Binary -- the exact value of a double

A finite double is a sign and a natural number times a power of two. `Binary.ofFloat` reads that
value off the bits, so that everything said about decimal text afterwards is arithmetic on natural
numbers.
-/

namespace Casewise.Decimal

/-- **A finite double**: `mantissa * 2 ^ exponent`, with a sign that zero has too. -/
structure Binary where
  negative : Bool
  mantissa : Nat
  exponent : Int
  /-- Whether the double below is only half as far away as the one above: the mantissa is the
  least of its binade, and there is a binade below. -/
  narrowBelow : Bool
deriving Repr, DecidableEq, Inhabited

/-- What a double stands for. -/
inductive Reading where
  | nan
  | infinite (negative : Bool)
  | finite (value : Binary)
deriving Repr, DecidableEq, Inhabited

/-- The least mantissa of fifty-three bits: `2 ^ 52`. -/
def leastNormal : Nat := 0x10000000000000

namespace Reading

/-- Reads the sign bit, the eleven bits of the exponent and the fifty-two of the fraction. -/
def ofBits (bits : Nat) : Reading :=
  let negative := bits / Nat.pow 2 63 % 2 == 1
  let biased : Nat := bits / leastNormal % 2048
  let fraction : Nat := bits % leastNormal
  if biased = 2047 then
    if fraction = 0 then .infinite negative else .nan
  else if biased = 0 then
    .finite ⟨negative, fraction, -1074, false⟩
  else
    .finite ⟨negative, leastNormal + fraction, (biased : Int) - 1075, fraction == 0 && biased != 1⟩

def ofFloat (x : Float) : Reading := ofBits x.toBits.toNat

end Reading

end Casewise.Decimal
