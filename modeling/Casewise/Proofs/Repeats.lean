import Casewise.DataFile
import Casewise.Proofs.Expansion
import Casewise.Proofs.JsonText
import Casewise.Proofs.Reading

/-!
# Casewise.Proofs.Repeats -- what becomes of a name that a file writes twice

A data file can repeat a name in two places. A repeated name of a data set is kept by the reader
and refused by the expansion, since both sets would generate the same name. A repeated name inside
a named row is settled by the reader: the last value stays, the others are gone, and whoever
expands the row cannot tell.

`expands_from_text_iff` says exactly which texts end in an expansion. The names of the data sets
have to differ; of the names inside a row it asks only that a row may use them, however often
each is written. So the repeats of the first kind always surface, those of the second kind never.
-/

namespace Casewise

open Identifier

universe u

variable {V R : Type} [Cell V]

/-! ## Rows, said of the data -/

/-- A name is the name of some member just if it has a last one. -/
theorem exists_lastMember_iff {α : Type u} {members : List (String × α)} {name : String} :
    (∃ a, LastMember members name a) ↔ name ∈ members.map Prod.fst := by
  induction members with
  | nil => simp [not_lastMember_nil]
  | cons first rest ih =>
    obtain ⟨key, b⟩ := first
    rw [List.map_cons, List.mem_cons, ← ih]
    simp only [lastMember_cons_iff]
    constructor
    · rintro ⟨a, hlast | ⟨heq, _⟩⟩
      · exact .inr ⟨a, hlast⟩
      · exact .inl (Prod.mk.inj heq).1.symm
    · rintro (rfl | ⟨a, hlast⟩)
      · -- the first member is the last of its name, or a later one is
        by_cases hlater : name ∈ rest.map Prod.fst
        · obtain ⟨a, hlast⟩ := ih.mpr hlater
          exact ⟨a, .inl hlast⟩
        · exact ⟨b, .inr ⟨rfl, hlater⟩⟩
      · exact ⟨a, .inl hlast⟩

/-- **When a datum is a row that can be bound** to parameters. -/
def BindableRow (V : Type) [Cell V] (policy : ArityPolicy) (parameters : List String)
    (d : Datum) : Prop :=
  (∃ items, d = .list items ∧ (∀ item ∈ items, Cell.Fits V item) ∧
    (policy = .strict → items.length = parameters.length)) ∨
  ∃ inner, d = .table inner ∧ ∀ x ∈ inner, Cell.Fits V x.2 ∧ MayName parameters x.1

/-- The names of a named row are those that are written, each once. -/
theorem mem_names_iff_of_lastMember {members : List (String × Datum)} {values : NameMap V}
    (hfit : ∀ m ∈ members, Cell.Fits V m.2)
    (hlast : ∀ name v, values.get? name = some v ↔
      ∃ d, LastMember members name d ∧ Cell.read? d = some v) {name : String} :
    name ∈ values.names ↔ name ∈ members.map Prod.fst := by
  rw [NameMap.mem_names_iff, NameMap.contains_iff, ← exists_lastMember_iff]
  simp only [hlast]
  constructor
  · rintro ⟨v, d, hd, _⟩
    exact ⟨d, hd⟩
  · rintro ⟨d, before, after, hsplit, hlater⟩
    have hmem : (name, d) ∈ members := by
      rw [hsplit]
      exact List.mem_append_right _ List.mem_cons_self
    obtain ⟨v, hv⟩ := hfit _ hmem
    exact ⟨v, d, ⟨before, after, hsplit, hlater⟩, hv⟩

/-- A row fits the parameters just if the datum that it is read from says so. -/
theorem Row.Reads.fits_iff {policy : ArityPolicy} {parameters : List String} {d : Datum}
    {row : Row V} (h : Row.Reads d row) :
    row.Fits policy parameters ↔ BindableRow V policy parameters d := by
  cases h with
  | @positional items values hcells =>
    have hfit : ∀ item ∈ items, Cell.Fits V item := exists_forall₂_iff.mp ⟨values, hcells⟩
    rw [Row.Fits, ← hcells.length_eq]
    constructor
    · exact fun hlength => .inl ⟨items, rfl, hfit, hlength⟩
    · rintro (⟨_, heq, _, hlength⟩ | ⟨_, heq, _⟩)
      · obtain rfl := Datum.list.inj heq
        exact hlength
      · cases heq
  | @named inner values hfit hlast =>
    simp only [Row.Fits, mem_names_iff_of_lastMember hfit hlast]
    constructor
    · intro hnames
      exact .inr ⟨inner, rfl, fun x hx => ⟨hfit x hx, hnames x.1 (List.mem_map_of_mem hx)⟩⟩
    · rintro (⟨_, heq, _⟩ | ⟨_, heq, hmembers⟩)
      · cases heq
      · obtain rfl := Datum.table.inj heq
        intro name hname
        obtain ⟨x, hx, rfl⟩ := List.mem_map.mp hname
        exact (hmembers x hx).2

theorem BindableRow.exists_reads {policy : ArityPolicy} {parameters : List String} {d : Datum}
    (h : BindableRow V policy parameters d) : ∃ row : Row V, Row.Reads d row := by
  rw [Row.exists_reads_iff]
  rcases h with ⟨items, rfl, hfit, _⟩ | ⟨inner, rfl, hfit⟩
  · exact .inl ⟨items, rfl, hfit⟩
  · exact .inr ⟨inner, rfl, fun x hx => (hfit x hx).1⟩

/-! ## From a text to an expansion -/

/-- Data sets read from a table expand just if they are named apart and each of them can be
bound. -/
theorem exists_expandable_iff {policy : ArityPolicy} {parameters : List String}
    {function : String} {members : List (String × Datum)} :
    (∃ sets : DataSets V, DataSets.read? (Datum.table members) = some sets ∧
      Expandable policy parameters sets function) ↔
    IsIdentifier function ∧ (∀ p ∈ parameters, IsIdentifier p) ∧ parameters.Nodup ∧
      (members.map Prod.fst).Nodup ∧
      ∀ m ∈ members, IsFragment m.1 ∧ BindableRow V policy parameters m.2 := by
  have hrows : ∀ sets : DataSets V, DataSets.read? (Datum.table members) = some sets →
      ((∀ set ∈ sets.entries, set.2.Fits policy parameters) ↔
        ∀ m ∈ members, BindableRow V policy parameters m.2) := by
    intro sets hread
    obtain ⟨_, heq, hforall⟩ := DataSets.read?_eq_some_iff.mp hread
    obtain rfl := Datum.table.inj heq
    refine (forall_mem_iff_of_forall₂ hforall fun m set hset => ?_).symm
    exact hset.2.fits_iff.symm
  constructor
  · rintro ⟨sets, hread, hfunction, hparameters, hdistinct, hnames, hnodup, hfit⟩
    rw [DataSets.names_of_read? hread] at hnames hnodup
    refine ⟨hfunction, hparameters, hdistinct, hnodup, fun m hm => ?_⟩
    exact ⟨hnames m.1 (List.mem_map_of_mem hm), (hrows sets hread).mp hfit m hm⟩
  · rintro ⟨hfunction, hparameters, hdistinct, hnodup, hmembers⟩
    obtain ⟨sets, hread⟩ : ∃ sets : DataSets V, DataSets.read? (Datum.table members) = some sets :=
      DataSets.exists_read?_iff.mpr ⟨members, rfl, fun m hm => (hmembers m hm).2.exists_reads⟩
    refine ⟨sets, hread, hfunction, hparameters, hdistinct, ?_, ?_, ?_⟩
    · rw [DataSets.names_of_read? hread]
      intro name hname
      obtain ⟨m, hm, rfl⟩ := List.mem_map.mp hname
      exact (hmembers m hm).1
    · rw [DataSets.names_of_read? hread]
      exact hnodup
    · exact (hrows sets hread).mpr fun m hm => (hmembers m hm).2

/-- What a test of a named row is run on is what the last members say. -/
theorem exists_test_of_table {policy : ArityPolicy} {parameters : List String}
    {f : TestFunction V R} {members : List (String × Datum)} {sets : DataSets V} {e : Expansion R}
    (hread : DataSets.read? (Datum.table members) = some sets)
    (he : (expandWith policy parameters sets f).outcome = .ok e) {i : Nat} {dataSet : String}
    {inner : List (String × Datum)} (hi : members[i]? = some (dataSet, .table inner)) :
    ∃ t arguments, e.tests[i]? = some t ∧ t.run () = f.body arguments ∧
      ∀ name v, arguments.get? name = some v ↔
        ∃ d, LastMember inner name d ∧ Cell.read? d = some v := by
  obtain ⟨_, rfl⟩ := outcome_expandWith_eq_ok_iff.mp he
  obtain ⟨row, hentry, hreads⟩ := DataSets.exists_entry_of_read? hread hi
  cases hreads with
  | @named _ values hfit hlast =>
    refine ⟨f.testOf parameters (dataSet, .named values), ⟨values.entries⟩, ?_, rfl, hlast⟩
    rw [TestFunction.expansion, List.getElem?_map, hentry, Option.map_some]

/-- **Which texts end in an expansion**, whatever the function, its parameters and the policy. No
two data sets may have one name, so a name that is written twice for them never goes unnoticed.
Inside a row nothing is asked of how often a name is written: its last value is what the test is
run on. -/
theorem expands_from_text_iff (origin text : String) (policy : ArityPolicy)
    (parameters : List String) (f : TestFunction V R) :
    ((∃ (sets : DataSets V) (e : Expansion R), Format.json.parse origin text = .ok sets ∧
        (expandWith policy parameters sets f).outcome = .ok e) ↔
      IsIdentifier f.name ∧ (∀ p ∈ parameters, IsIdentifier p) ∧ parameters.Nodup ∧
        ∃ members, Json.parse? text = some (.table members) ∧ (members.map Prod.fst).Nodup ∧
          ∀ m ∈ members, IsFragment m.1 ∧ BindableRow V policy parameters m.2) ∧
    ∀ (sets : DataSets V) (e : Expansion R) (members inner : List (String × Datum)) (i : Nat)
      (dataSet : String), Format.json.parse origin text = .ok sets →
      (expandWith policy parameters sets f).outcome = .ok e →
      Json.parse? text = some (.table members) → members[i]? = some (dataSet, .table inner) →
      ∃ t arguments, e.tests[i]? = some t ∧ t.run () = f.body arguments ∧
        ∀ name v, arguments.get? name = some v ↔
          ∃ d, LastMember inner name d ∧ Cell.read? d = some v := by
  constructor
  · constructor
    · rintro ⟨sets, e, hparse, he⟩
      obtain ⟨d, hd, hread⟩ := Format.parse_json_eq_ok_iff.mp hparse
      obtain ⟨members, rfl, _⟩ := DataSets.read?_eq_some_iff.mp hread
      obtain ⟨hexpandable, _⟩ := outcome_expandWith_eq_ok_iff.mp he
      obtain ⟨hfunction, hparameters, hdistinct, hmembers⟩ :=
        exists_expandable_iff.mp ⟨sets, hread, hexpandable⟩
      exact ⟨hfunction, hparameters, hdistinct, members, hd, hmembers⟩
    · rintro ⟨hfunction, hparameters, hdistinct, members, hd, hmembers⟩
      obtain ⟨sets, hread, hexpandable⟩ : ∃ sets : DataSets V,
          DataSets.read? (Datum.table members) = some sets ∧
            Expandable policy parameters sets f.name :=
        exists_expandable_iff.mpr ⟨hfunction, hparameters, hdistinct, hmembers⟩
      refine ⟨sets, f.expansion parameters sets, ?_, ?_⟩
      · exact Format.parse_json_eq_ok_iff.mpr ⟨_, hd, hread⟩
      · exact outcome_expandWith_eq_ok_iff.mpr ⟨hexpandable, rfl⟩
  · intro sets e members inner i dataSet hparse he hd hi
    obtain ⟨d, hd', hread⟩ := Format.parse_json_eq_ok_iff.mp hparse
    rw [hd] at hd'
    obtain rfl := Option.some.inj hd'
    exact exists_test_of_table hread he hi

/-- A data set that names the same parameter twice. -/
def overwritten : String := "\x7b\"a\":\x7b\"x\":1,\"x\":2\x7d\x7d"

/-- A function that tells what it was given. -/
def tellX : TestFunction Int64 (Option Int64) :=
  ⟨⟨"f", "", none⟩, fun arguments => arguments.get? "x"⟩

/-- **A value is lost in silence**: the text names `x` twice in one row, and expands all the same,
to a test of the second value alone. -/
theorem overwritten_expands :
    Json.parse? overwritten =
      some (.table [("a", .table [("x", .int 1), ("x", .int 2)])]) ∧
    ∃ (sets : DataSets Int64) (e : Expansion (Option Int64)),
      Format.json.parse Format.json.inlineOrigin overwritten = .ok sets ∧
      (expandWith .strict ["x"] sets tellX).outcome = .ok e ∧
      e.tests.map (fun t => (t.arguments, t.run ())) = [("x=2", some 2)] := by
  have htext : overwritten =
      Json.textOf (.table [("a", .table [("x", .int 1), ("x", .int 2)])]) := rfl
  have hparse : Json.parse? overwritten =
      some (.table [("a", .table [("x", .int 1), ("x", .int 2)])]) := by
    rw [htext]
    exact Json.parse?_textOf rfl (by decide)
  refine ⟨hparse, ⟨[("a", .named ⟨[("x", 2)], by decide⟩)]⟩, _, ?_, rfl, rfl⟩
  exact Format.parse_json_eq_ok_iff.mpr ⟨_, hparse, rfl⟩

end Casewise
