import Casewise.Datum.Basic
import Casewise.Decimal.Scaled

/-!
# Casewise.Json.Numeral -- the number literals of JSON

A numeral is a sign, integer digits without a superfluous leading zero, and possibly a fraction
and an exponent, each with at least one digit. It denotes an integer when it has neither and the
integer is a word of sixty-four bits; otherwise a real, read by scaling (`Scaled`). Minus zero is
a real, since no integer has that sign. A numeral beyond every double denotes nothing.
-/

namespace Casewise.Json

open Decimal

/-- **A number literal**, its digits as written. An absent fraction has no digits. -/
structure Numeral where
  negative : Bool
  whole : List Nat
  fraction : List Nat
  exponent : Option Int
deriving Repr, DecidableEq

/-- The value of a decimal digit. -/
def digitValue (c : Char) : Nat := c.toNat - '0'.toNat

/-- The digits that a text starts with, and the rest. -/
def digits (cs : List Char) : List Nat × List Char :=
  ((cs.takeWhile Char.isDigit).map digitValue, cs.dropWhile Char.isDigit)

/-- The number that digits denote. -/
def ofDigits (ds : List Nat) : Nat := ds.foldl (fun n d => 10 * n + d) 0

namespace Numeral

/-- Integer digits: one zero, or digits that do not start with one. -/
def whole? (cs : List Char) : Option (List Nat × List Char) :=
  match digits cs with
  | ([], _) => none
  | (0 :: _ :: _, _) => none
  | (ds, rest) => some (ds, rest)

/-- The digits after a point, if there is a point. -/
def fraction? (cs : List Char) : Option (List Nat × List Char) :=
  match cs with
  | '.' :: rest =>
    match digits rest with
    | ([], _) => none
    | (ds, rest) => some (ds, rest)
  | cs => some ([], cs)

/-- Exponent digits under a sign. -/
def exponentDigits? (negative : Bool) (cs : List Char) : Option (Option Int × List Char) :=
  match digits cs with
  | ([], _) => none
  | (ds, rest) =>
    let size : Int := ofDigits ds
    some (some (if negative then -size else size), rest)

/-- The exponent, if there is one. -/
def exponent? (cs : List Char) : Option (Option Int × List Char) :=
  match cs with
  | 'e' :: '-' :: rest | 'E' :: '-' :: rest => exponentDigits? true rest
  | 'e' :: '+' :: rest | 'E' :: '+' :: rest => exponentDigits? false rest
  | 'e' :: rest | 'E' :: rest => exponentDigits? false rest
  | cs => some (none, cs)

/-- **Reads a numeral** off the front of a text. -/
def read? (cs : List Char) : Option (Numeral × List Char) :=
  let (negative, cs) := match cs with
    | '-' :: rest => (true, rest)
    | cs => (false, cs)
  do
    let (whole, cs) ← whole? cs
    let (fraction, cs) ← fraction? cs
    let (exponent, cs) ← exponent? cs
    return (⟨negative, whole, fraction, exponent⟩, cs)

/-- The real that a numeral denotes, read by scaling. -/
def real? (n : Numeral) : Option Float :=
  let s := (Scaled.ofInteger 0 n.whole).pushFraction n.fraction
  (Scaled.toFloat? ⟨s.significand, s.power + n.exponent.getD 0⟩).map fun x =>
    if n.negative then -x else x

/-- **What a numeral denotes.** -/
def datum (n : Numeral) : Datum :=
  let size := ofDigits n.whole
  let real := match n.real? with
    | some x => .real x
    | none => .unreadable
  if n.fraction ≠ [] ∨ n.exponent.isSome then real
  else if n.negative then
    if 0 < size ∧ size ≤ 0x8000000000000000 then .int (-size) else real
  else
    if size < 0x10000000000000000 then .int size else real

end Numeral

end Casewise.Json
