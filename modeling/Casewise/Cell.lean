import Casewise.Datum.Canonical
import Casewise.Json.Writer
import Casewise.Text.Outline

/-!
# Casewise.Cell -- the types that argument values can have

A data set is a row of cells, and the cells of one suite have one type. What such a type has to
offer is the class `Cell`: a reading of a datum that may not fit, a datum to write, an outline to
show in listings, and a test for equality. There are six types: words of sixty-four bits, truth
values, texts, reals, a cell that may be missing, and `Value`, a canonical datum, for suites that
leave the type open.
-/

namespace Casewise

open Text

/-- **A type of argument values.** -/
class Cell (V : Type) where
  /-- The value that a datum stands for, if the datum fits the type. -/
  read? : Datum → Option V
  write : V → Datum
  outline : V → Outline
  same : V → V → Bool

/-! ## Showing numbers -/

/-- Reals are shown positionally from `0.0001` up to `10 ^ 16`; a positive exponent has no sign,
and of two equally near digit strings the greater one is taken. -/
def Outline.realLayout : Decimal.Layout := ⟨-3, 16, false, .up⟩

/-- How a real is shown. -/
def showReal (x : Float) : List Char :=
  match Decimal.Reading.ofFloat x with
  | .nan => "NaN".toList
  | .infinite negative => if negative then "-inf".toList else "inf".toList
  | .finite b => Outline.realLayout.ofBinary b

/-! ## The outline of a datum -/

namespace Datum

mutual

/-- **How a datum is shown.** Every part is labelled with its kind, so that the text `1` and the
number `1` are told apart; a number is shown as in JSON. -/
def outline : Datum → Outline
  | .null => .ofString "Null"
  | .truth true => .ofString "Bool(true)"
  | .truth false => .ofString "Bool(false)"
  | .int i => .atom ("Number(".toList ++ Json.writeInt i ++ [')'])
  | .real x => .atom ("Number(".toList ++ Json.writeReal x ++ [')'])
  | .text s => .atom ("String(".toList ++ quote s.toList ++ [')'])
  | .list items => .list "Array " (outlineItems items)
  | .table members => .map "Object " (outlineMembers members)
  | .unreadable => .ofString "Unreadable"

def outlineItems : List Datum → List Outline
  | [] => []
  | d :: rest => outline d :: outlineItems rest

def outlineMembers : List (String × Datum) → List (String × Outline)
  | [] => []
  | (name, d) :: rest => (name, outline d) :: outlineMembers rest

end

theorem outlineItems_eq_map (items : List Datum) : outlineItems items = items.map outline := by
  induction items with
  | nil => rfl
  | cons d rest ih => rw [outlineItems, ih, List.map_cons]

theorem outlineMembers_eq_map (members : List (String × Datum)) :
    outlineMembers members = members.map fun m => (m.1, outline m.2) := by
  induction members with
  | nil => rfl
  | cons m rest ih => rw [outlineMembers, ih, List.map_cons]

end Datum

/-! ## The six types -/

/-- A word: an integer that fits sixty-four bits with a sign, from `-2 ^ 63` up to below
`2 ^ 63`. -/
instance : Cell Int64 where
  read?
    | .int i =>
      if -0x8000000000000000 ≤ i ∧ i < 0x8000000000000000 then some (Int64.ofInt i) else none
    | _ => none
  write i := .int i.toInt
  outline i := .atom (Json.writeInt i.toInt)
  same a b := a == b

instance : Cell Bool where
  read?
    | .truth b => some b
    | _ => none
  write b := .truth b
  outline b := .ofString (if b then "true" else "false")
  same a b := a == b

instance : Cell String where
  read?
    | .text s => some s
    | _ => none
  write s := .text s
  outline s := .quoted s
  same a b := a == b

/-- A real; an integer stands for the nearest one. -/
instance : Cell Float where
  read?
    | .int i => if Datum.isWord i then some (Datum.wordToFloat i) else none
    | .real x => some x
    | _ => none
  write x := .real x
  outline x := .atom (showReal x)
  same a b := a == b

/-- A value that may be missing: null stands for none. -/
instance {V : Type} [Cell V] : Cell (Option V) where
  read?
    | .null => some none
    | d => (Cell.read? d).map some
  write
    | none => .null
    | some v => Cell.write v
  outline v := .option (v.map Cell.outline)
  same
    | none, none => true
    | some a, some b => Cell.same a b
    | _, _ => false

instance : Cell Value where
  read? := Value.ofDatum?
  write v := v.datum
  outline v := v.datum.outline
  same a b := a.datum.same b.datum

end Casewise
