import Casewise.NameMap

/-!
# Casewise.Datum.Basic -- what a data file says, before it has a type

Data files come in two notations, and both denote the same kind of thing: a tree of nulls, truth
values, numbers, texts, lists and tables. `Datum` is that tree. A table keeps its members in the
order of the file and keeps repeated names, because which of them count is decided by whoever
reads the table, not by the notation.

A piece of a file can be well formed and yet stand for nothing: a number beyond every double, half
a surrogate pair, nesting too deep to be read. Such a piece is `unreadable`. It may be passed
over, as a member that nobody asked for, but it fits no type.
-/

namespace Casewise

/-- **A tree of data.** -/
inductive Datum where
  | null
  | truth (value : Bool)
  | int (value : Int)
  | real (value : Float)
  | text (value : String)
  | list (items : List Datum)
  | table (members : List (String × Datum))
  | unreadable
deriving Inhabited

namespace Datum

/-! ## Equality of data -/

mutual

/-- **The same datum.** Numbers compare as numbers within a kind, so a NaN differs from itself, the
two zeros do not differ, and an integer differs from every real. -/
def same : Datum → Datum → Bool
  | .null, .null => true
  | .truth a, .truth b => a == b
  | .int a, .int b => a == b
  | .real a, .real b => a == b
  | .text a, .text b => a == b
  | .list a, .list b => sameItems a b
  | .table a, .table b => sameMembers a b
  | _, _ => false

def sameItems : List Datum → List Datum → Bool
  | [], [] => true
  | a :: as, b :: bs => same a b && sameItems as bs
  | _, _ => false

def sameMembers : List (String × Datum) → List (String × Datum) → Bool
  | [], [] => true
  | (ka, a) :: as, (kb, b) :: bs => ka == kb && same a b && sameMembers as bs
  | _, _ => false

end

/-- The bounds of an integer: a signed or an unsigned word of sixty-four bits, from `-2 ^ 63` up to
below `2 ^ 64`. -/
def isWord (i : Int) : Bool := -0x8000000000000000 ≤ i && i < 0x10000000000000000

/-- The integer as a double, the nearest one. -/
def wordToFloat (i : Int) : Float :=
  let size := i.natAbs.toUInt64.toFloat
  if i < 0 then -size else size

end Datum

end Casewise
