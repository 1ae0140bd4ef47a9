import Casewise.DataFile
import Casewise.Proofs.JsonText
import Casewise.Proofs.Reading

/-!
# Casewise.Proofs.RoundTrip -- data sets and suites survive being written

Between a suite and its text stands a datum, so the way out and the way back have two legs each.
That the text gives back the datum is the business of `Json.parse?_textOf`. This module is about
the other leg: cells, rows, data sets, functions and suites are each read back from the datum that
they are written as (`read?_write`), provided that cells are (`Cell.Kept`). Nothing has to be asked
of the names, which may be repeated or empty, nor of the docs.

What the text leg needs is then counted over the whole: a written suite holds no numbers but those
of its cells (`isIntegral_write_iff`), and stands five levels around them (`depth_write_le`).
`json_round_trip` puts the legs together for each type of cells but reals.
-/

namespace Casewise

universe u

variable {V : Type} [Cell V]

/-! ## Maps -/

/-- In a map each name has one entry, which is its last. -/
theorem NameMap.lastMember_entries_iff {α : Type u} (map : NameMap α) {name : String} {a : α} :
    LastMember map.entries name a ↔ map.get? name = some a := by
  rw [lastMember_iff_mem map.names_nodup, NameMap.mem_entries_iff]

/-- A map is read back from its entries. -/
theorem NameMap.ofList_entries {α : Type u} (map : NameMap α) : ofList map.entries = map := by
  refine NameMap.ext_get? fun name => Option.ext fun a => ?_
  rw [NameMap.get?_ofList_eq_some_iff, NameMap.lastMember_entries_iff]

/-! ## Values of open type -/

namespace Datum

theorem areCanonical_iff {items : List Datum} :
    areCanonical items = true ↔ ∀ d ∈ items, isCanonical d = true := by
  induction items with
  | nil => simp [areCanonical]
  | cons d rest ih => rw [areCanonical, Bool.and_eq_true, ih, List.forall_mem_cons]

theorem normalItems?_eq_self {items : List Datum} (h : ∀ d ∈ items, normal? d = some d) :
    normalItems? items = some items := by
  induction items with
  | nil => rfl
  | cons d rest ih =>
    obtain ⟨hd, hrest⟩ := List.forall_mem_cons.mp h
    rw [normalItems?, hd, ih hrest]
    rfl

theorem normalMembers?_eq_self {members : List (String × Datum)}
    (h : ∀ m ∈ members, normal? m.2 = some m.2) : normalMembers? members = some members := by
  induction members with
  | nil => rfl
  | cons m rest ih =>
    obtain ⟨hm, hrest⟩ := List.forall_mem_cons.mp h
    obtain ⟨name, d⟩ := m
    rw [normalMembers?, hm, ih hrest]
    rfl

/-- **A canonical datum is its own canonical form.** -/
theorem normal?_of_isCanonical {d : Datum} (h : d.isCanonical = true) : d.normal? = some d := by
  induction d using Datum.induction with
  | null => rfl
  | truth b => rfl
  | int i => exact if_pos h
  | real x => exact congrArg some (if_pos h)
  | text s => rfl
  | list items ih =>
    have hitems := areCanonical_iff.mp h
    rw [normal?, normalItems?_eq_self fun d hd => ih d hd (hitems d hd), Option.map_some]
  | table members ih =>
    simp only [isCanonical, Bool.and_eq_true, decide_eq_true_eq] at h
    have hmembers := haveCanonical_iff.mp h.1
    rw [normal?, normalMembers?_eq_self fun m hm => ih m hm (hmembers m hm), Option.map_some,
      NameMap.ofList_entries ⟨members, h.2⟩]
  | unreadable => cases h

end Datum

/-! ## Cells -/

/-- **The cells of a type are kept** when they are written and read as data. -/
def Cell.Kept (V : Type) [Cell V] : Prop := ∀ v : V, Cell.read? (Cell.write v) = some v

/-- **A type of plain cells**: they are kept, and no cell is a real, a list or a table. -/
structure Cell.Plain (V : Type) [Cell V] : Prop where
  kept : Cell.Kept V
  integral : ∀ v : V, (Cell.write v).isIntegral = true
  flat : ∀ v : V, (Cell.write v).depth = 0

namespace Cell

theorem plain_int64 : Plain Int64 where
  kept i := by
    have hlower := i.le_toInt
    have hupper := i.toInt_lt
    show (if _ then some (Int64.ofInt i.toInt) else none) = some i
    rw [if_pos (by omega), Int64.ofInt_toInt]
  integral i := by
    have hlower := i.le_toInt
    have hupper := i.toInt_lt
    show Datum.isWord i.toInt = true
    simp only [Datum.isWord, Bool.and_eq_true, decide_eq_true_eq]
    omega
  flat _ := rfl

theorem plain_bool : Plain Bool where
  kept _ := rfl
  integral _ := rfl
  flat _ := rfl

theorem plain_string : Plain String where
  kept _ := rfl
  integral _ := rfl
  flat _ := rfl

/-- A cell may be missing if null stands for no cell. -/
theorem plain_option (h : Plain V) (hnull : ∀ v : V, Cell.write v ≠ .null) : Plain (Option V) where
  kept
    | none => rfl
    | some v => by
      have hread : (Cell.read? (Cell.write v) : Option V) = some v := h.kept v
      have hsome : ∀ d : Datum, d ≠ .null →
          (Cell.read? d : Option (Option V)) = (Cell.read? d).map some := by
        intro d hd
        cases d with
        | null => exact absurd rfl hd
        | _ => rfl
      show Cell.read? (Cell.write v) = some (some v)
      rw [hsome _ (hnull v), hread, Option.map_some]
  integral
    | none => rfl
    | some v => h.integral v
  flat
    | none => rfl
    | some v => h.flat v

theorem kept_value : Kept Value :=
  fun v => Value.ofDatum?_eq_some_iff.mpr (Datum.normal?_of_isCanonical v.canonical)

end Cell

/-! ## Rows and data sets -/

/-- The cells of a row. -/
def Row.cells : Row V → List V
  | .positional values => values
  | .named values => values.values

/-- The cells of all rows. -/
def DataSets.cells (sets : DataSets V) : List V := sets.entries.flatMap fun e => e.2.cells

/-- A row is read back, of its own kind. -/
theorem Row.reads_write (h : Cell.Kept V) (row : Row V) : Row.Reads row.write row := by
  cases row with
  | positional values =>
    refine .positional ?_
    rw [List.forall₂_map_left_iff, List.forall₂_same]
    exact fun v _ => h v
  | named values =>
    have hmembers : List.Forall₂ (fun m cell => cell.1 = m.1 ∧ Cell.read? m.2 = some cell.2)
        (writeMembers values) values.entries := by
      rw [writeMembers, List.forall₂_map_left_iff, List.forall₂_same]
      exact fun cell _ => ⟨rfl, h cell.2⟩
    refine .named ?_ ?_
    · intro m hm
      obtain ⟨cell, _, rfl⟩ := List.mem_map.mp hm
      exact ⟨cell.2, h cell.2⟩
    · intro name v
      rw [← NameMap.lastMember_entries_iff, lastMember_iff_of_forall₂ hmembers]

theorem Row.isIntegral_write_iff {row : Row V} :
    row.write.isIntegral = true ↔ ∀ v ∈ row.cells, (Cell.write v).isIntegral = true := by
  cases row with
  | positional values => rw [write, cells, Datum.isIntegral_list_iff, List.forall_mem_map]
  | named values =>
    rw [write, cells, writeMembers, NameMap.values, Datum.isIntegral_table_iff,
      List.forall_mem_map, List.forall_mem_map]

theorem Row.depth_write_le {row : Row V} {n : Nat} (h : ∀ v : V, (Cell.write v).depth ≤ n) :
    row.write.depth ≤ n + 1 := by
  cases row with
  | positional values =>
    rw [write, Datum.depth_list_le_iff, List.forall_mem_map]
    exact ⟨n.succ_pos, fun v _ => h v⟩
  | named values =>
    rw [write, writeMembers, Datum.depth_table_le_iff, List.forall_mem_map]
    exact ⟨n.succ_pos, fun e _ => h e.2⟩

namespace DataSets

/-- **Data sets are read back**: the same rows under the same names, in order. -/
theorem read?_write (h : Cell.Kept V) (sets : DataSets V) : read? sets.write = some sets := by
  rw [read?_eq_some_iff]
  refine ⟨_, rfl, ?_⟩
  rw [List.forall₂_map_left_iff, List.forall₂_same]
  exact fun e _ => ⟨rfl, Row.reads_write h e.2⟩

theorem isIntegral_write_iff {sets : DataSets V} :
    sets.write.isIntegral = true ↔ ∀ v ∈ sets.cells, (Cell.write v).isIntegral = true := by
  rw [write, Datum.isIntegral_table_iff, List.forall_mem_map]
  simp only [Row.isIntegral_write_iff, cells, List.forall_mem_flatMap]

theorem depth_write_le {sets : DataSets V} {n : Nat} (h : ∀ v : V, (Cell.write v).depth ≤ n) :
    sets.write.depth ≤ n + 2 := by
  rw [write, Datum.depth_table_le_iff, List.forall_mem_map]
  exact ⟨Nat.succ_pos _, fun e _ => Row.depth_write_le h⟩

end DataSets

/-! ## Suites -/

namespace FunctionEntry

theorem texts?_map_text (texts : List String) :
    texts? (Datum.list (texts.map .text)) = some texts := by
  show (texts.map Datum.text).mapM Source.text? = some texts
  rw [mapM_eq_some_iff, List.forall₂_map_left_iff, List.forall₂_same]
  exact fun _ _ => rfl

/-- **A function is read back**, with a doc or without. -/
theorem read?_write (h : Cell.Kept V) (f : FunctionEntry V) : read? f.write = some f := by
  obtain ⟨name, doc, parameters, dataSets, lenient⟩ := f
  have hparameters := texts?_map_text parameters
  have hsets := DataSets.read?_write h dataSets
  cases doc with
  | none =>
    simp [read?, write, Source.record?, Source.required?, Source.optional?, Source.member?,
      Source.text?, Source.flag?, hparameters, hsets]
  | some doc =>
    simp [read?, write, Source.record?, Source.required?, Source.optional?, Source.member?,
      Source.text?, Source.optionalText?, Source.flag?, hparameters, hsets]

/-- The only numbers in a function are those in its cells. -/
theorem isIntegral_write_iff {f : FunctionEntry V} :
    f.write.isIntegral = true ↔ f.dataSets.write.isIntegral = true := by
  have htexts : (Datum.list (f.parameters.map .text)).isIntegral = true := by
    rw [Datum.isIntegral_list_iff, List.forall_mem_map]
    exact fun _ _ => rfl
  rw [write, Datum.isIntegral_table_iff]
  cases f.doc with
  | none => simp [htexts]
  | some doc => simp [htexts]

theorem depth_write_le {f : FunctionEntry V} {n : Nat} (h : ∀ v : V, (Cell.write v).depth ≤ n) :
    f.write.depth ≤ n + 3 := by
  have htexts : (Datum.list (f.parameters.map .text)).depth ≤ n + 2 := by
    rw [Datum.depth_list_le_iff, List.forall_mem_map]
    exact ⟨Nat.succ_pos _, fun _ _ => Nat.zero_le _⟩
  have hsets : f.dataSets.write.depth ≤ n + 2 := DataSets.depth_write_le h
  rw [write, Datum.depth_table_le_iff]
  cases f.doc with
  | none => simp [htexts, hsets]
  | some doc => simp [htexts, hsets]

end FunctionEntry

namespace Suite

/-- **A suite is read back**, function by function. -/
theorem read?_write (h : Cell.Kept V) (s : Suite V) : read? s.write = some s := by
  obtain ⟨module, functions⟩ := s
  have hfunctions : functions? (Datum.list (functions.map FunctionEntry.write)) =
      some functions := by
    show (functions.map FunctionEntry.write).mapM FunctionEntry.read? = some functions
    rw [mapM_eq_some_iff, List.forall₂_map_left_iff, List.forall₂_same]
    exact fun f _ => FunctionEntry.read?_write h f
  simp [read?, write, Source.record?, Source.required?, Source.optional?, Source.member?,
    Source.text?, hfunctions]

/-- The cells of all functions. -/
def cells (s : Suite V) : List V := s.functions.flatMap fun f => f.dataSets.cells

theorem isIntegral_write_iff {s : Suite V} :
    s.write.isIntegral = true ↔ ∀ v ∈ s.cells, (Cell.write v).isIntegral = true := by
  have hfunctions : (Datum.list (s.functions.map FunctionEntry.write)).isIntegral = true ↔
      ∀ v ∈ s.cells, (Cell.write v).isIntegral = true := by
    rw [Datum.isIntegral_list_iff, List.forall_mem_map, cells, List.forall_mem_flatMap]
    simp only [FunctionEntry.isIntegral_write_iff, DataSets.isIntegral_write_iff]
  rw [← hfunctions, write, Datum.isIntegral_table_iff]
  simp

theorem depth_write_le {s : Suite V} {n : Nat} (h : ∀ v : V, (Cell.write v).depth ≤ n) :
    s.write.depth ≤ n + 5 := by
  have hfunctions : (Datum.list (s.functions.map FunctionEntry.write)).depth ≤ n + 4 := by
    rw [Datum.depth_list_le_iff, List.forall_mem_map]
    exact ⟨Nat.succ_pos _, fun f _ => FunctionEntry.depth_write_le h⟩
  rw [write, Datum.depth_table_le_iff]
  simp [hfunctions]

end Suite

/-! ## Text -/

/-- What is read back as data is read back as text, if its numbers are integers and it is not
nested too deep. -/
theorem parse_json_textOf {α : Type} [Loadable α] {a : α} {d : Datum}
    (hread : Loadable.ofDatum? d = some a) (hintegral : d.isIntegral = true)
    (hdepth : d.depth ≤ Json.depthLimit) (origin : String) :
    Format.json.parse origin (Json.textOf d) = .ok a := by
  rw [Format.parse_json_eq_ok_iff]
  exact ⟨d, Json.parse?_textOf hintegral hdepth, hread⟩

/-- **JSON keeps data sets and suites of a type**: reading the text that they are written as gives
them back. -/
def RoundTrips (V : Type) [Cell V] : Prop :=
  (∀ (origin : String) (sets : DataSets V),
    Format.json.parse origin (Json.textOf sets.write) = .ok sets) ∧
  ∀ (origin : String) (s : Suite V), Format.json.parse origin (Json.textOf s.write) = .ok s

/-- Plain cells can stand in any data sets and any suite. -/
theorem Cell.Plain.roundTrips (h : Plain V) : RoundTrips V := by
  have hflat : ∀ v : V, (Cell.write v).depth ≤ 0 := fun v => Nat.le_of_eq (h.flat v)
  constructor
  · intro origin sets
    have hdepth : sets.write.depth ≤ 2 := DataSets.depth_write_le hflat
    refine parse_json_textOf (DataSets.read?_write h.kept sets) ?_ ?_ origin
    · exact DataSets.isIntegral_write_iff.mpr fun v _ => h.integral v
    · exact Nat.le_trans hdepth (by decide)
  · intro origin s
    have hdepth : s.write.depth ≤ 5 := Suite.depth_write_le hflat
    refine parse_json_textOf (Suite.read?_write h.kept s) ?_ ?_ origin
    · exact Suite.isIntegral_write_iff.mpr fun v _ => h.integral v
    · exact Nat.le_trans hdepth (by decide)

/-- **Data sets and suites survive being written as JSON**, whatever their names and docs, with
repeated names, empty rows and missing cells. Plain cells can be of any type. Values of open type
may hold any integers and texts to any depth that the reader goes. -/
theorem json_round_trip :
    (RoundTrips Int64 ∧ RoundTrips Bool ∧ RoundTrips (Option Int64) ∧ RoundTrips String) ∧
    (∀ (origin : String) (sets : DataSets Value),
      (∀ v ∈ sets.cells, v.datum.isIntegral = true) → sets.write.depth ≤ Json.depthLimit →
      Format.json.parse origin (Json.textOf sets.write) = .ok sets) ∧
    ∀ (origin : String) (s : Suite Value),
      (∀ v ∈ s.cells, v.datum.isIntegral = true) → s.write.depth ≤ Json.depthLimit →
      Format.json.parse origin (Json.textOf s.write) = .ok s := by
  refine ⟨⟨?_, ?_, ?_, ?_⟩, ?_, ?_⟩
  · exact Cell.plain_int64.roundTrips
  · exact Cell.plain_bool.roundTrips
  · exact (Cell.plain_option Cell.plain_int64 fun _ => Datum.noConfusion).roundTrips
  · exact Cell.plain_string.roundTrips
  · intro origin sets hintegral hdepth
    refine parse_json_textOf (DataSets.read?_write Cell.kept_value sets) ?_ hdepth origin
    exact DataSets.isIntegral_write_iff.mpr hintegral
  · intro origin s hintegral hdepth
    refine parse_json_textOf (Suite.read?_write Cell.kept_value s) ?_ hdepth origin
    exact Suite.isIntegral_write_iff.mpr hintegral

/-- A suite that repeats a name and has empty rows, nested values, the outermost words and texts
that have to be escaped. -/
def openSuite : Suite Value :=
  ⟨"m \"\\\u0001",
    [⟨"f", none, ["x"],
      ⟨[("a", .positional [⟨.list [.null, .int (-0x8000000000000000)], rfl⟩]),
        ("a", .named ⟨[("x", ⟨.table [("", .text "\n"), ("k", .list [])], by decide⟩)], by decide⟩),
        ("b", .positional []), ("", .named .empty)]⟩, true⟩,
     ⟨"f", some "", [], ⟨[("c", .positional [⟨.int 0xffffffffffffffff, rfl⟩])]⟩, false⟩]⟩

theorem openSuite_round_trip :
    (∀ v ∈ openSuite.cells, v.datum.isIntegral = true) ∧
    openSuite.write.depth ≤ Json.depthLimit ∧
    Format.json.parse "" (Json.textOf openSuite.write) = .ok openSuite := by
  have hintegral : ∀ v ∈ openSuite.cells, v.datum.isIntegral = true := by decide
  have hdepth : openSuite.write.depth ≤ Json.depthLimit := by decide
  exact ⟨hintegral, hdepth, json_round_trip.2.2 "" openSuite hintegral hdepth⟩

end Casewise
