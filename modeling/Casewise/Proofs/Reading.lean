import Mathlib.Data.List.Forall2
import Mathlib.Data.List.Induction
import Casewise.Suite

/-!
# Casewise.Proofs.Reading -- which data are data sets, and which sets they are

Data sets are read from a table whose members are lists or tables of cells. Three rules meet in
it. The members of the table are the data sets, one for each, in order, whatever their names. The
items of a list are a positional row, in order. The members of an inner table are a named row,
where the names are put in order and the last of several members of one name counts.

`Row.Reads d row` says this for one row without looking at how it is read: a list stands for a
positional row only, a table for a named one only, and in both every cell has to fit, the ones that
do not count included. The reader agrees with it (`Row.read?_eq_some_iff`), although it tries one
kind of row after the other. What is read is therefore determined, and `dataSets_grammar` says
exactly when there is anything to read.
-/

namespace Casewise

universe u

/-! ## Reading each element of a list -/

/-- A list is read just if each of its elements is, and then into the list of what they give. -/
theorem mapM_eq_some_iff {α β : Type u} {f : α → Option β} {as : List α} {bs : List β} :
    as.mapM f = some bs ↔ List.Forall₂ (fun a b => f a = some b) as bs := by
  induction as generalizing bs with
  | nil =>
    rw [List.mapM_nil, List.forall₂_nil_left_iff]
    exact ⟨fun h => (Option.some.inj h).symm, fun h => congrArg some h.symm⟩
  | cons a as ih =>
    rw [List.mapM_cons, List.forall₂_cons_left_iff]
    simp only [bind, Option.bind_eq_some_iff, ih]
    constructor
    · rintro ⟨b, hb, rest, hrest, heq⟩
      exact ⟨b, rest, hb, hrest, (Option.some.inj heq).symm⟩
    · rintro ⟨b, rest, hb, hrest, rfl⟩
      exact ⟨b, hb, rest, hrest, rfl⟩

/-- Elements that are each related to something are together related to a list. -/
theorem exists_forall₂_iff {α β : Type u} {R : α → β → Prop} {as : List α} :
    (∃ bs, List.Forall₂ R as bs) ↔ ∀ a ∈ as, ∃ b, R a b := by
  constructor
  · rintro ⟨bs, hforall⟩ a ha
    obtain ⟨i, hi, rfl⟩ := List.getElem_of_mem ha
    exact ⟨_, hforall.get hi (hforall.length_eq ▸ hi)⟩
  · intro h
    induction as with
    | nil => exact ⟨[], .nil⟩
    | cons a as ih =>
      obtain ⟨b, hb⟩ := h a List.mem_cons_self
      obtain ⟨bs, hbs⟩ := ih fun x hx => h x (List.mem_cons_of_mem _ hx)
      exact ⟨b :: bs, .cons hb hbs⟩

/-- What holds of all elements on one side holds of all on the other, if it carries over from each
to what it is related to. -/
theorem forall_mem_iff_of_forall₂ {α β : Type u} {R : α → β → Prop} {P : α → Prop} {Q : β → Prop}
    {as : List α} {bs : List β} (h : List.Forall₂ R as bs) (hPQ : ∀ a b, R a b → (P a ↔ Q b)) :
    (∀ a ∈ as, P a) ↔ ∀ b ∈ bs, Q b := by
  induction h with
  | nil => simp
  | cons hab _ ih => rw [List.forall_mem_cons, List.forall_mem_cons, hPQ _ _ hab, ih]

theorem exists_mapM_eq_some_iff {α β : Type u} {f : α → Option β} {as : List α} :
    (∃ bs, as.mapM f = some bs) ↔ ∀ a ∈ as, ∃ b, f a = some b := by
  simp only [mapM_eq_some_iff, exists_forall₂_iff]

/-! ## The last member of a name -/

/-- **The last member of a name** among members that may repeat it. -/
def LastMember {α : Type u} (members : List (String × α)) (name : String) (a : α) : Prop :=
  ∃ before after, members = before ++ (name, a) :: after ∧ name ∉ after.map Prod.fst

theorem not_lastMember_nil {α : Type u} {name : String} {a : α} : ¬ LastMember [] name a := by
  rintro ⟨before, after, hsplit, _⟩
  simp at hsplit

theorem lastMember_cons_iff {α : Type u} {first : String × α} {rest : List (String × α)}
    {name : String} {a : α} :
    LastMember (first :: rest) name a ↔
      LastMember rest name a ∨ first = (name, a) ∧ name ∉ rest.map Prod.fst := by
  constructor
  · rintro ⟨before, after, hsplit, hlater⟩
    cases before with
    | nil =>
      obtain ⟨rfl, rfl⟩ := List.cons.inj hsplit
      exact .inr ⟨rfl, hlater⟩
    | cons m before =>
      obtain ⟨_, hrest⟩ := List.cons.inj hsplit
      exact .inl ⟨before, after, hrest, hlater⟩
  · rintro (⟨before, after, rfl, hlater⟩ | ⟨rfl, hlater⟩)
    · exact ⟨first :: before, after, rfl, hlater⟩
    · exact ⟨[], rest, rfl, hlater⟩

/-- Where no name is repeated, every member is the last of its name. -/
theorem lastMember_iff_mem {α : Type u} {members : List (String × α)} {name : String} {a : α}
    (hnodup : (members.map Prod.fst).Nodup) :
    LastMember members name a ↔ (name, a) ∈ members := by
  constructor
  · rintro ⟨before, after, rfl, _⟩
    exact List.mem_append_right _ List.mem_cons_self
  · intro hmem
    obtain ⟨before, after, rfl⟩ := List.append_of_mem hmem
    rw [List.map_append, List.map_cons] at hnodup
    exact ⟨before, after, rfl, (List.nodup_cons.mp (List.nodup_append.mp hnodup).2.1).1⟩

/-- Inserting members one after the other leaves the last one of a name, or what was there before
where no member has the name. -/
theorem NameMap.get?_foldl_insert_eq_some_iff {α : Type u} {members : List (String × α)}
    {map : NameMap α} {name : String} {a : α} :
    (members.foldl (fun map m => map.insert m.1 m.2) map).get? name = some a ↔
      LastMember members name a ∨ name ∉ members.map Prod.fst ∧ map.get? name = some a := by
  induction members generalizing map with
  | nil => simp [not_lastMember_nil]
  | cons first rest ih =>
    obtain ⟨key, b⟩ := first
    rw [List.foldl_cons, ih, lastMember_cons_iff, NameMap.get?_insert, List.map_cons,
      List.mem_cons, not_or, or_assoc]
    refine or_congr_right ?_
    by_cases hname : name = key
    · subst hname
      simp [and_comm]
    · have hne : key ≠ name := Ne.symm hname
      simp [hname, hne]

/-- **A map read from members holds the last one of each name.** -/
theorem NameMap.get?_ofList_eq_some_iff {α : Type u} {members : List (String × α)}
    {name : String} {a : α} :
    (NameMap.ofList members).get? name = some a ↔ LastMember members name a := by
  rw [NameMap.ofList, NameMap.get?_foldl_insert_eq_some_iff, NameMap.get?_empty]
  simp

/-! ## Rows -/

variable {V : Type} [Cell V]

/-- **A datum fits the type of the cells.** -/
def Cell.Fits (V : Type) [Cell V] (d : Datum) : Prop := ∃ v : V, Cell.read? d = some v

namespace Row

/-- **The row that a datum stands for.** A list is a positional row of its items. A table is a
named row in which every member fits and the last one of a name counts. -/
inductive Reads : Datum → Row V → Prop where
  | positional {items : List Datum} {values : List V}
    (cells : List.Forall₂ (fun item v => Cell.read? item = some v) items values) :
    Reads (.list items) (.positional values)
  | named {members : List (String × Datum)} {values : NameMap V}
    (fit : ∀ m ∈ members, Cell.Fits V m.2)
    (last : ∀ name v, values.get? name = some v ↔
      ∃ d, LastMember members name d ∧ Cell.read? d = some v) :
    Reads (.table members) (.named values)

theorem readMembers?_eq_some_iff {members : List (String × Datum)} {cells : List (String × V)} :
    readMembers? members = some cells ↔
      List.Forall₂ (fun m cell => cell.1 = m.1 ∧ Cell.read? m.2 = some cell.2) members cells := by
  have hmember : (fun (m : String × Datum) (cell : String × V) =>
      (Cell.read? m.2).map (fun v => (m.1, v)) = some cell) =
        fun m cell => cell.1 = m.1 ∧ Cell.read? m.2 = some cell.2 := by
    funext m cell
    obtain ⟨name, value⟩ := cell
    simp only [Option.map_eq_some_iff, Prod.mk.injEq]
    refine propext ⟨?_, ?_⟩
    · rintro ⟨_, hread, rfl, rfl⟩
      exact ⟨rfl, hread⟩
    · rintro ⟨rfl, hread⟩
      exact ⟨value, hread, rfl, rfl⟩
  rw [readMembers?, mapM_eq_some_iff, hmember]

/-- Members and what is read of them have their last of a name at the same place. -/
theorem lastMember_iff_of_forall₂ {members : List (String × Datum)} {cells : List (String × V)}
    (h : List.Forall₂ (fun m cell => cell.1 = m.1 ∧ Cell.read? m.2 = some cell.2) members cells)
    {name : String} {v : V} :
    LastMember cells name v ↔ ∃ d, LastMember members name d ∧ Cell.read? d = some v := by
  induction h with
  | nil => simp [not_lastMember_nil]
  | @cons m cell members cells hm hrest ih =>
    obtain ⟨key, d⟩ := m
    obtain ⟨label, w⟩ := cell
    obtain ⟨rfl, hread⟩ : label = key ∧ Cell.read? d = some w := hm
    have hnames : cells.map Prod.fst = members.map Prod.fst := by
      rw [← List.forall₂_eq_eq_eq, List.forall₂_map_left_iff, List.forall₂_map_right_iff]
      exact (hrest.imp fun _ _ hmem => hmem.1).flip
    rw [lastMember_cons_iff, ih, hnames]
    constructor
    · rintro (⟨e, hlast, he⟩ | ⟨heq, hlater⟩)
      · exact ⟨e, lastMember_cons_iff.mpr (.inl hlast), he⟩
      · obtain ⟨rfl, rfl⟩ := Prod.mk.inj heq
        exact ⟨d, lastMember_cons_iff.mpr (.inr ⟨rfl, hlater⟩), hread⟩
    · rintro ⟨e, hlast, he⟩
      rcases lastMember_cons_iff.mp hlast with hlast | ⟨heq, hlater⟩
      · exact .inl ⟨e, hlast, he⟩
      · obtain ⟨rfl, rfl⟩ := Prod.mk.inj heq
        rw [hread] at he
        obtain rfl := Option.some.inj he
        exact .inr ⟨rfl, hlater⟩

theorem exists_readMembers?_iff {members : List (String × Datum)} :
    (∃ cells : List (String × V), readMembers? members = some cells) ↔
      ∀ m ∈ members, Cell.Fits V m.2 := by
  rw [readMembers?, exists_mapM_eq_some_iff]
  refine forall₂_congr fun m _ => ?_
  simp only [Option.map_eq_some_iff, Cell.Fits]
  constructor
  · rintro ⟨_, v, hv, _⟩
    exact ⟨v, hv⟩
  · rintro ⟨v, hv⟩
    exact ⟨_, v, hv, rfl⟩

theorem positional?_eq_some_iff {d : Datum} {row : Row V} :
    positional? d = some row ↔
      ∃ items values, d = .list items ∧ row = .positional values ∧
        List.Forall₂ (fun item v => Cell.read? item = some v) items values := by
  cases d with
  | list items =>
    simp only [positional?, Option.map_eq_some_iff, mapM_eq_some_iff, Datum.list.injEq]
    constructor
    · rintro ⟨values, hcells, rfl⟩
      exact ⟨items, values, rfl, rfl, hcells⟩
    · rintro ⟨_, values, rfl, rfl, hcells⟩
      exact ⟨values, hcells, rfl⟩
  | _ => simp [positional?]

theorem named?_eq_some_iff {d : Datum} {row : Row V} :
    named? d = some row ↔
      ∃ members values, d = .table members ∧ row = .named values ∧
        (∀ m ∈ members, Cell.Fits V m.2) ∧
        ∀ name v, values.get? name = some v ↔
          ∃ d, LastMember members name d ∧ Cell.read? d = some v := by
  cases d with
  | table members =>
    simp only [named?, Option.map_eq_some_iff, Datum.table.injEq]
    constructor
    · rintro ⟨cells, hread, rfl⟩
      refine ⟨members, _, rfl, rfl, exists_readMembers?_iff.mp ⟨cells, hread⟩, ?_⟩
      intro name v
      rw [NameMap.get?_ofList_eq_some_iff]
      exact lastMember_iff_of_forall₂ (readMembers?_eq_some_iff.mp hread)
    · rintro ⟨_, values, rfl, rfl, hfit, hlast⟩
      obtain ⟨cells, hread⟩ := exists_readMembers?_iff.mpr hfit
      refine ⟨cells, hread, congrArg Row.named (NameMap.ext_get? fun name => ?_)⟩
      refine Option.ext fun v => ?_
      rw [hlast, NameMap.get?_ofList_eq_some_iff]
      exact lastMember_iff_of_forall₂ (readMembers?_eq_some_iff.mp hread)
  | _ => simp [named?]

/-- **The reader gives a row just if the datum stands for it**: trying one kind of row after the
other is no matter of order, since no datum can be read as both. -/
theorem read?_eq_some_iff {d : Datum} {row : Row V} : read? d = some row ↔ Reads d row := by
  have hor : read? d = some row ↔ positional? d = some row ∨
      (positional? d : Option (Row V)) = none ∧ named? d = some row := by
    rw [read?]
    cases (positional? d : Option (Row V)) with
    | none => simp
    | some r => simp
  rw [hor, positional?_eq_some_iff, named?_eq_some_iff]
  constructor
  · rintro (⟨items, values, rfl, rfl, hcells⟩ | ⟨_, members, values, rfl, rfl, hfit, hlast⟩)
    · exact .positional hcells
    · exact .named hfit hlast
  · intro h
    cases h with
    | positional hcells => exact .inl ⟨_, _, rfl, rfl, hcells⟩
    | named hfit hlast => exact .inr ⟨rfl, _, _, rfl, rfl, hfit, hlast⟩

/-- **A datum stands for a row just if it is a list or a table in which everything fits.** -/
theorem exists_reads_iff {d : Datum} :
    (∃ row : Row V, Reads d row) ↔
      (∃ items, d = .list items ∧ ∀ item ∈ items, Cell.Fits V item) ∨
      ∃ members, d = .table members ∧ ∀ m ∈ members, Cell.Fits V m.2 := by
  constructor
  · rintro ⟨row, h⟩
    cases h with
    | @positional items values hcells =>
      refine .inl ⟨items, rfl, ?_⟩
      exact exists_mapM_eq_some_iff.mp ⟨values, mapM_eq_some_iff.mpr hcells⟩
    | @named members values hfit _ => exact .inr ⟨members, rfl, hfit⟩
  · rintro (⟨items, rfl, hfit⟩ | ⟨members, rfl, hfit⟩)
    · obtain ⟨values, hvalues⟩ := exists_mapM_eq_some_iff.mpr hfit
      exact ⟨_, .positional (mapM_eq_some_iff.mp hvalues)⟩
    · obtain ⟨cells, hread⟩ := exists_readMembers?_iff.mpr hfit
      refine ⟨.named (NameMap.ofList cells), .named hfit fun name v => ?_⟩
      rw [NameMap.get?_ofList_eq_some_iff]
      exact lastMember_iff_of_forall₂ (readMembers?_eq_some_iff.mp hread)

end Row

/-! ## Data sets -/

namespace DataSets

/-- **Data sets are read from the members of a table**, one from each, in order. -/
theorem read?_eq_some_iff {d : Datum} {sets : DataSets V} :
    read? d = some sets ↔
      ∃ members, d = .table members ∧
        List.Forall₂ (fun m set => set.1 = m.1 ∧ Row.Reads m.2 set.2) members sets.entries := by
  have hmember : (fun (m : String × Datum) (set : String × Row V) =>
      (do let row ← Row.read? (← Source.datum? m.2); return (m.1, row) : Option _) = some set) =
        fun m set => set.1 = m.1 ∧ Row.Reads m.2 set.2 := by
    funext m set
    obtain ⟨name, row⟩ := set
    refine propext ?_
    show ((Row.read? m.2).bind fun row => some (m.1, row)) = some (name, row) ↔ _
    simp only [Option.bind_eq_some_iff, Option.some.injEq, Prod.mk.injEq, ← Row.read?_eq_some_iff]
    constructor
    · rintro ⟨_, hread, rfl, rfl⟩
      exact ⟨rfl, hread⟩
    · rintro ⟨rfl, hread⟩
      exact ⟨row, hread, rfl, rfl⟩
  rw [← hmember]
  cases d with
  | table members =>
    obtain ⟨entries⟩ := sets
    show ((members.mapM _ : Option (List (String × Row V))).bind fun entries =>
      some (DataSets.mk entries)) = some ⟨entries⟩ ↔ _
    simp only [Option.bind_eq_some_iff, mapM_eq_some_iff, Option.some.injEq, DataSets.mk.injEq,
      Datum.table.injEq, exists_eq_left', exists_eq_right]
  | _ => simp [read?, Source.members?]

/-- Data sets can be read just if each member of a table stands for a row. -/
theorem exists_read?_iff {d : Datum} :
    (∃ sets : DataSets V, read? d = some sets) ↔
      ∃ members, d = .table members ∧ ∀ m ∈ members, ∃ row : Row V, Row.Reads m.2 row := by
  simp only [read?_eq_some_iff]
  constructor
  · rintro ⟨sets, members, rfl, hforall⟩
    refine ⟨members, rfl, fun m hm => ?_⟩
    obtain ⟨set, _, hrow⟩ := exists_forall₂_iff.mp ⟨_, hforall⟩ m hm
    exact ⟨set.2, hrow⟩
  · rintro ⟨members, rfl, hrows⟩
    have hsets : ∀ m ∈ members,
        ∃ set : String × Row V, set.1 = m.1 ∧ Row.Reads m.2 set.2 := by
      intro m hm
      obtain ⟨row, hrow⟩ := hrows m hm
      exact ⟨(m.1, row), rfl, hrow⟩
    obtain ⟨entries, hforall⟩ := exists_forall₂_iff.mpr hsets
    exact ⟨⟨entries⟩, members, rfl, hforall⟩

/-- What is read of a table has the names of its members, repeated ones included. -/
theorem names_of_read? {members : List (String × Datum)} {sets : DataSets V}
    (h : read? (Datum.table members) = some sets) : sets.names = members.map Prod.fst := by
  obtain ⟨_, heq, hforall⟩ := read?_eq_some_iff.mp h
  obtain rfl := Datum.table.inj heq
  rw [names, ← List.forall₂_eq_eq_eq, List.forall₂_map_left_iff, List.forall₂_map_right_iff]
  exact (hforall.imp fun _ _ hset => hset.1).flip

/-- The member at a place stands for the data set at that place. -/
theorem exists_entry_of_read? {members : List (String × Datum)} {sets : DataSets V}
    (h : read? (Datum.table members) = some sets) {i : Nat} {name : String} {d : Datum}
    (hi : members[i]? = some (name, d)) :
    ∃ row, sets.entries[i]? = some (name, row) ∧ Row.Reads d row := by
  obtain ⟨_, heq, hforall⟩ := read?_eq_some_iff.mp h
  obtain rfl := Datum.table.inj heq
  obtain ⟨hlt, hm⟩ := List.getElem?_eq_some_iff.mp hi
  have hlt' : i < sets.entries.length := hforall.length_eq ▸ hlt
  have hset := hforall.get hlt hlt'
  simp only [List.get_eq_getElem, hm] at hset
  refine ⟨sets.entries[i].2, ?_, hset.2⟩
  rw [List.getElem?_eq_getElem hlt', ← hset.1]

end DataSets

/-- **The grammar of data sets, and what is read by it.** A datum is read as data sets just if it
is a table of lists and tables in which everything fits. Then each member is a data set of its
name, in order. A list is a positional row of its items in order; a table is a named row with its
names in order, and under each name what the last member of that name says. -/
theorem dataSets_grammar (d : Datum) :
    ((∃ sets : DataSets V, DataSets.read? d = some sets) ↔
      ∃ members, d = .table members ∧ ∀ m ∈ members,
        (∃ items, m.2 = .list items ∧ ∀ item ∈ items, Cell.Fits V item) ∨
        ∃ inner, m.2 = .table inner ∧ ∀ x ∈ inner, Cell.Fits V x.2) ∧
    ∀ (sets : DataSets V) (members : List (String × Datum)),
      DataSets.read? d = some sets → d = .table members →
      sets.names = members.map Prod.fst ∧
      ∀ (i : Nat) (name : String),
        (∀ items, members[i]? = some (name, .list items) →
          ∃ values, sets.entries[i]? = some (name, .positional values) ∧
            values.length = items.length ∧
            ∀ (j : Nat) (item : Datum), items[j]? = some item →
              ∃ v, values[j]? = some v ∧ Cell.read? item = some v) ∧
        ∀ inner, members[i]? = some (name, .table inner) →
          ∃ values, sets.entries[i]? = some (name, .named values) ∧
            values.names.Pairwise (· < ·) ∧
            ∀ key v, values.get? key = some v ↔
              ∃ before x after, inner = before ++ (key, x) :: after ∧
                key ∉ after.map Prod.fst ∧ Cell.read? x = some v := by
  constructor
  · simp only [DataSets.exists_read?_iff, Row.exists_reads_iff]
  · intro sets members hread hd
    subst hd
    refine ⟨DataSets.names_of_read? hread, ?_⟩
    intro i name
    constructor
    · intro items hi
      obtain ⟨row, hentry, hreads⟩ := DataSets.exists_entry_of_read? hread hi
      cases hreads with
      | @positional _ values hcells =>
        refine ⟨values, hentry, hcells.length_eq.symm, ?_⟩
        intro j item hj
        obtain ⟨hlt, rfl⟩ := List.getElem?_eq_some_iff.mp hj
        have hlt' : j < values.length := hcells.length_eq ▸ hlt
        exact ⟨values[j], List.getElem?_eq_getElem hlt', hcells.get hlt hlt'⟩
    · intro inner hi
      obtain ⟨row, hentry, hreads⟩ := DataSets.exists_entry_of_read? hread hi
      cases hreads with
      | @named _ values _ hlast =>
        refine ⟨values, hentry, values.names_pairwise, ?_⟩
        intro key v
        rw [hlast]
        constructor
        · rintro ⟨x, ⟨before, after, hsplit, hlater⟩, hx⟩
          exact ⟨before, x, after, hsplit, hlater, hx⟩
        · rintro ⟨before, x, after, hsplit, hlater, hx⟩
          exact ⟨x, ⟨before, after, hsplit, hlater⟩, hx⟩

/-- Data sets under a repeated name, and in one of them a parameter under a repeated name. -/
def repeating : Datum :=
  .table [("b", .table [("y", .int 1), ("x", .int 2), ("y", .int 3)]),
    ("a", .list [.int 4, .int 5]), ("b", .list [])]

/-- The outer repeat is kept, of the inner one the last value counts. -/
theorem repeating_grammar :
    ∃ sets : DataSets Int64, DataSets.read? repeating = some sets ∧ sets.names = ["b", "a", "b"] ∧
      (∃ values, sets.entries[0]? = some ("b", .named values) ∧ values.get? "y" = some 3) ∧
      ∃ values, sets.entries[1]? = some ("a", .positional values) ∧ values[1]? = some 5 := by
  obtain ⟨hfits, hfaithful⟩ := dataSets_grammar (V := Int64) repeating
  obtain ⟨sets, hread⟩ : ∃ sets : DataSets Int64, DataSets.read? repeating = some sets := by
    refine hfits.mpr ⟨_, rfl, ?_⟩
    simp only [List.forall_mem_cons]
    refine ⟨.inr ⟨_, rfl, ?_⟩, .inl ⟨_, rfl, ?_⟩, .inl ⟨_, rfl, nofun⟩, nofun⟩
    · simp only [List.forall_mem_cons]
      exact ⟨⟨1, rfl⟩, ⟨2, rfl⟩, ⟨3, rfl⟩, nofun⟩
    · simp only [List.forall_mem_cons]
      exact ⟨⟨4, rfl⟩, ⟨5, rfl⟩, nofun⟩
  obtain ⟨hnames, hentries⟩ := hfaithful sets _ hread rfl
  refine ⟨sets, hread, hnames, ?_, ?_⟩
  · obtain ⟨values, hentry, _, hget⟩ := (hentries 0 "b").2 _ rfl
    refine ⟨values, hentry, (hget "y" 3).mpr ?_⟩
    exact ⟨[("y", .int 1), ("x", .int 2)], .int 3, [], rfl, List.not_mem_nil, rfl⟩
  · obtain ⟨values, hentry, _, hcells⟩ := (hentries 1 "a").1 _ rfl
    obtain ⟨v, hv, hcell⟩ := hcells 1 (.int 5) rfl
    obtain rfl : (5 : Int64) = v := Option.some.inj hcell
    exact ⟨values, hentry, hv⟩

end Casewise
