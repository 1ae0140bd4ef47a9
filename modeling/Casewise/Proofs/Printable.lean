import Casewise.Proofs.Rendering
import Casewise.Proofs.Rows

/-!
# Casewise.Proofs.Printable -- no argument breaks the line it is listed on

A listing has one line for a test, so nothing that it says of the arguments may hold a line break,
or a control that a terminal obeys. The names are identifiers and harmless. Values hold texts, and
so do the names of their members, and in a text anything can stand.

What is shown of a value is put together from three kinds of pieces: quoted texts, in which every
control is escaped (`not_isControl_of_mem_quote`), numbers, and fixed words and brackets.
`Printable` says that a piece holds no control. It is kept where pieces are put together, so it
goes by induction on data from the pieces to values (`Datum.printable_shown`) and from there to
rendered arguments (`Arguments.printable_renderChars`).
-/

namespace Casewise

namespace Text

/-- **Characters without a control among them.** -/
def Printable (cs : List Char) : Prop := ∀ c ∈ cs, isControl c = false

instance (cs : List Char) : Decidable (Printable cs) :=
  List.decidableBAll (fun c => isControl c = false) cs

@[simp] theorem printable_nil : Printable [] := List.forall_mem_nil _

@[simp] theorem printable_cons_iff {c : Char} {cs : List Char} :
    Printable (c :: cs) ↔ isControl c = false ∧ Printable cs := List.forall_mem_cons

@[simp] theorem printable_append_iff {as bs : List Char} :
    Printable (as ++ bs) ↔ Printable as ∧ Printable bs := List.forall_mem_append

theorem Printable.sublist {as bs : List Char} (h : Printable bs) (hsub : as.Sublist bs) :
    Printable as := fun c hc => h c (hsub.mem hc)

theorem printable_replicate {c : Char} (h : isControl c = false) (n : Nat) :
    Printable (List.replicate n c) := fun _ hd => List.eq_of_mem_replicate hd ▸ h

/-- No control is found in a printable text: no line break, and no escape. -/
theorem Printable.notMem {cs : List Char} (h : Printable cs) {c : Char} (hc : isControl c = true) :
    c ∉ cs := by
  intro hmem
  rw [h c hmem] at hc
  cases hc

theorem printable_quote (cs : List Char) : Printable (quote cs) :=
  fun _ h => not_isControl_of_mem_quote h

/-- Parts with commas between them are as printable as the parts. -/
theorem printable_commaJoin {α : Type} {text : α → List Char} {parts : List α}
    (h : ∀ a ∈ parts, Printable (text a)) : Printable (Outline.commaJoin (parts.map text)) := by
  cases parts with
  | nil => exact printable_nil
  | cons a parts =>
    obtain ⟨ha, hlater⟩ := List.forall_mem_cons.mp h
    have hfurther : Printable (further text parts) := by
      intro c hc
      obtain ⟨b, hb, hcb⟩ := List.mem_flatMap.mp hc
      have hpart : Printable (',' :: ' ' :: text b) := by
        simpa using ⟨by decide, by decide, hlater b hb⟩
      exact hpart c hcb
    rw [commaJoin_map_cons, printable_append_iff]
    exact ⟨ha, hfurther⟩

end Text

open Text Identifier

/-! ## Names -/

namespace Identifier

theorem IsWord.not_isControl {c : Char} (h : IsWord c) : isControl c = false := by
  have hcode : ∀ {lower upper : Char}, lower ≤ c ∧ c ≤ upper → 0x20 ≤ lower.toNat →
      upper.toNat < 0x7f → isControl c = false := by
    intro lower upper ⟨hlower, hupper⟩ hleast hgreatest
    have hle : lower.toNat ≤ c.toNat := hlower
    have hge : c.toNat ≤ upper.toNat := hupper
    simp only [isControl, Bool.or_eq_false_iff, Bool.and_eq_false_iff, decide_eq_false_iff_not]
    omega
  rcases h with ((hcapital | hsmall) | rfl) | hdigit
  · exact hcode hcapital (by decide) (by decide)
  · exact hcode hsmall (by decide) (by decide)
  · decide
  · exact hcode hdigit (by decide) (by decide)

theorem IsIdentifier.printable {name : String} (h : IsIdentifier name) : Printable name.toList :=
  fun _ hc => (h.isWord hc).not_isControl

theorem IsFragment.printable {name : String} (h : IsFragment name) : Printable name.toList :=
  fun c hc => (h.2 c hc).not_isControl

end Identifier

/-! ## Numbers -/

theorem printable_toDigits (n : Nat) : Printable (Nat.toDigits 10 n) := by
  intro c hc
  have hdigit : c.isDigit = true := Nat.isDigit_of_mem_toDigits (by decide) (by decide) hc
  have hword : IsWord c := isPart_iff.mp (by rw [isPart, hdigit, Bool.or_true])
  exact hword.not_isControl

namespace Decimal.Layout

variable {digits : List Char}

theorem printable_positional (h : Printable digits) (point : Int) :
    Printable (positional digits point) := by
  have hzeros : ∀ n, Printable (List.replicate n '0') := printable_replicate (by decide)
  unfold positional
  split
  · simp only [printable_cons_iff, printable_append_iff]
    exact ⟨by decide, by decide, hzeros _, h⟩
  · simp only [printable_cons_iff, printable_append_iff]
    refine ⟨⟨h.sublist (List.take_sublist _ _), hzeros _⟩, by decide, ?_⟩
    split
    · decide
    · exact h.sublist (List.drop_sublist _ _)

theorem printable_scientific (layout : Layout) (h : Printable digits) (point : Int) :
    Printable (layout.scientific digits point) := by
  unfold scientific
  simp only [printable_cons_iff, printable_append_iff]
  refine ⟨⟨h.sublist (List.take_sublist _ _), ?_⟩, by decide, ?_, printable_toDigits _⟩
  · split
    · exact printable_nil
    · exact printable_cons_iff.mpr ⟨by decide, h.sublist (List.drop_sublist _ _)⟩
  · split
    · decide
    · split <;> decide

/-- In every layout a real is set in digits, signs and a point. -/
theorem printable_ofBinary (layout : Layout) (b : Binary) : Printable (layout.ofBinary b) := by
  unfold ofBinary
  rw [printable_append_iff]
  constructor
  · split <;> decide
  · split
    · decide
    · split
      · exact printable_positional (printable_toDigits _) _
      · exact printable_scientific layout (printable_toDigits _) _

end Decimal.Layout

namespace Json

theorem printable_writeInt (i : Int) : Printable (writeInt i) := by
  rw [writeInt, printable_append_iff]
  constructor
  · split <;> decide
  · exact printable_toDigits _

theorem printable_writeReal (x : Float) : Printable (writeReal x) := by
  unfold writeReal
  split
  · exact Decimal.Layout.printable_ofBinary _ _
  · decide

end Json

/-! ## Values -/

namespace Datum

/-- **What is shown of a datum is printable**, whatever the texts and the names in it. -/
theorem printable_shown (d : Datum) : Printable d.shown := by
  induction d using Datum.induction with
  | null => decide
  | truth b => cases b <;> decide
  | int i =>
    rw [shown_int]
    simp [Json.printable_writeInt, isControl]
  | real x =>
    show Printable ("Number(".toList ++ Json.writeReal x ++ [')'])
    simp [Json.printable_writeReal, isControl]
  | text s =>
    rw [shown_text]
    simp [printable_quote, isControl]
  | list items ih =>
    rw [shown_list]
    simp [printable_commaJoin ih, isControl]
  | table members ih =>
    have hmember : ∀ m ∈ members, Printable (shownMember m) := by
      intro m hm
      simp [shownMember, printable_quote, ih m hm, isControl]
    rw [shown_table]
    simp [printable_commaJoin hmember, isControl]
  | unreadable => decide

end Datum

/-- **The rendering of arguments is printable** if their names are. -/
theorem Arguments.printable_renderChars {arguments : Arguments Value}
    (h : ∀ name ∈ arguments.names, Printable name.toList) : Printable arguments.renderChars := by
  refine printable_commaJoin fun e he => ?_
  have hname : Printable e.1.toList := h e.1 (List.mem_map_of_mem he)
  have hvalue : Printable (Cell.outline e.2).oneLine := e.2.datum.printable_shown
  rw [renderEntry, printable_append_iff, printable_cons_iff]
  exact ⟨hname, by decide, hvalue⟩

/-- What a row binds has the names of identifiers, if the row fits parameters that are identifiers. -/
theorem Row.isIdentifier_of_mem_names {V : Type} {policy : ArityPolicy} {parameters : List String}
    {row : Row V} (hparameters : ∀ p ∈ parameters, IsIdentifier p)
    (hfits : row.Fits policy parameters) :
    ∀ name ∈ (row.arguments parameters).names, IsIdentifier name := by
  intro name hname
  cases row with
  | positional values =>
    obtain ⟨e, he, rfl⟩ := List.mem_map.mp hname
    exact hparameters e.1 (List.of_mem_zip he).1
  | named values =>
    obtain ⟨hdeclared, hfree⟩ := hfits name hname
    by_cases hnone : parameters = []
    · exact hfree hnone
    · exact hparameters name (hdeclared hnone)

end Casewise
