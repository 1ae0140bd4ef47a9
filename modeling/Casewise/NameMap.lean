/-!
# Casewise.NameMap -- finite maps from names, kept in the order of names

A namespace, the named values of a data set and the members of a canonical table are all finite
maps whose keys are shown in ascending order. `NameMap α` is the one type behind them: a list of
entries whose keys strictly ascend, the order being the one of `String` (by code points).

Because the list is strictly ascending it is determined by what it looks up:
`NameMap.ext_get?` says that two maps which agree under `get?` are equal. Every operation is
described by what it does to `get?` (`get?_insert`, `get?_erase`) and to the number of entries
(`size_insert`, `size_erase`), so nothing that uses a map has to look at its entries.
-/

namespace Casewise

universe u v

/-! ## Entry lists -/

namespace Entries

variable {α : Type u}

/-- Puts `value` under `name`: before the first greater key, in place of an equal one. -/
def insert (name : String) (value : α) : List (String × α) → List (String × α)
  | [] => [(name, value)]
  | (key, old) :: rest =>
    if name < key then (name, value) :: (key, old) :: rest
    else if name = key then (name, value) :: rest
    else (key, old) :: insert name value rest

/-- Drops what stands under `name`. -/
def erase (name : String) : List (String × α) → List (String × α)
  | [] => []
  | (key, old) :: rest => if name = key then rest else (key, old) :: erase name rest

/-- The first value under `name`. -/
def get? (name : String) : List (String × α) → Option α
  | [] => none
  | (key, value) :: rest => if name = key then some value else get? name rest

/-- **Keys strictly ascend**: every entry's key is below all later ones. -/
def Ascending (entries : List (String × α)) : Prop :=
  entries.Pairwise fun a b => a.1 < b.1

instance (entries : List (String × α)) : Decidable (Ascending entries) :=
  inferInstanceAs (Decidable (entries.Pairwise fun a b => a.1 < b.1))

theorem ascending_nil : Ascending ([] : List (String × α)) := List.Pairwise.nil

theorem ascending_cons {key : String} {value : α} {rest : List (String × α)} :
    Ascending ((key, value) :: rest) ↔ (∀ e ∈ rest, key < e.1) ∧ Ascending rest :=
  List.pairwise_cons

theorem mem_insert {name : String} {value : α} {entries : List (String × α)} {e : String × α}
    (h : e ∈ insert name value entries) : e = (name, value) ∨ e ∈ entries := by
  induction entries with
  | nil => simpa [insert] using h
  | cons head rest ih =>
    obtain ⟨key, old⟩ := head
    simp only [insert] at h
    split at h
    · simpa using h
    · split at h
      · rcases List.mem_cons.mp h with h | h
        · exact Or.inl h
        · exact Or.inr (List.mem_cons_of_mem _ h)
      · rcases List.mem_cons.mp h with h | h
        · exact Or.inr (List.mem_cons.mpr (Or.inl h))
        · exact (ih h).imp_right (List.mem_cons_of_mem _)

theorem mem_of_mem_erase {name : String} {entries : List (String × α)} {e : String × α}
    (h : e ∈ erase name entries) : e ∈ entries := by
  induction entries with
  | nil => simp [erase] at h
  | cons head rest ih =>
    obtain ⟨key, old⟩ := head
    simp only [erase] at h
    split at h
    · exact List.mem_cons_of_mem _ h
    · rcases List.mem_cons.mp h with h | h
      · exact List.mem_cons.mpr (Or.inl h)
      · exact List.mem_cons_of_mem _ (ih h)

/-- A key that is neither below nor equal to another is above it. -/
theorem lt_of_not_lt_of_ne {a b : String} (h : ¬ a < b) (hne : a ≠ b) : b < a := by
  rcases String.le_total a b with hab | hba
  · have hle : ¬ b ≤ a := fun hba => hne (String.le_antisymm hab hba)
    exact absurd (Std.lt_of_le_of_ne hab hne) h
  · exact Std.lt_of_le_of_ne hba (Ne.symm hne)

theorem ascending_insert (name : String) (value : α) {entries : List (String × α)}
    (h : Ascending entries) : Ascending (insert name value entries) := by
  induction entries with
  | nil => simp [insert, Ascending]
  | cons head rest ih =>
    obtain ⟨key, old⟩ := head
    obtain ⟨hkey, hrest⟩ := ascending_cons.mp h
    simp only [insert]
    split
    · rename_i hlt
      refine ascending_cons.mpr ⟨?_, h⟩
      intro e he
      rcases List.mem_cons.mp he with rfl | he
      · exact hlt
      · exact String.lt_trans hlt (hkey e he)
    · rename_i hlt
      split
      · rename_i heq
        subst heq
        exact ascending_cons.mpr ⟨hkey, hrest⟩
      · rename_i hne
        refine ascending_cons.mpr ⟨?_, ih hrest⟩
        intro e he
        rcases mem_insert he with rfl | he
        · exact lt_of_not_lt_of_ne hlt hne
        · exact hkey e he

theorem ascending_erase (name : String) {entries : List (String × α)}
    (h : Ascending entries) : Ascending (erase name entries) := by
  induction entries with
  | nil => exact ascending_nil
  | cons head rest ih =>
    obtain ⟨key, old⟩ := head
    obtain ⟨hkey, hrest⟩ := ascending_cons.mp h
    simp only [erase]
    split
    · exact hrest
    · exact ascending_cons.mpr ⟨fun e he => hkey e (mem_of_mem_erase he), ih hrest⟩

theorem get?_eq_none {name : String} {entries : List (String × α)}
    (h : ∀ e ∈ entries, name ≠ e.1) : get? name entries = none := by
  induction entries with
  | nil => rfl
  | cons head rest ih =>
    obtain ⟨key, value⟩ := head
    have hne : name ≠ key := h (key, value) List.mem_cons_self
    simp only [get?, if_neg hne]
    exact ih fun e he => h e (List.mem_cons_of_mem _ he)

/-- A key below all others is not among them. -/
theorem get?_eq_none_of_lt {name : String} {entries : List (String × α)}
    (h : ∀ e ∈ entries, name < e.1) : get? name entries = none :=
  get?_eq_none fun e he heq => String.lt_irrefl e.1 (heq ▸ h e he)

theorem get?_insert (name other : String) (value : α) {entries : List (String × α)} :
    get? other (insert name value entries) =
      if other = name then some value else get? other entries := by
  induction entries with
  | nil => simp [insert, get?]
  | cons head rest ih =>
    obtain ⟨key, old⟩ := head
    simp only [insert]
    split
    · simp [get?]
    · split
      · rename_i heq
        subst heq
        by_cases ho : other = name <;> simp [get?, ho]
      · rename_i hne
        simp only [get?, ih]
        by_cases hk : other = key
        · have : ¬ key = name := fun h => hne h.symm
          simp [hk, this]
        · simp [hk]

theorem get?_erase (name other : String) {entries : List (String × α)} (h : Ascending entries) :
    get? other (erase name entries) = if other = name then none else get? other entries := by
  induction entries with
  | nil => simp [erase, get?]
  | cons head rest ih =>
    obtain ⟨key, old⟩ := head
    obtain ⟨hkey, hrest⟩ := ascending_cons.mp h
    simp only [erase]
    split
    · rename_i heq
      subst heq
      by_cases ho : other = name
      · subst ho
        rw [if_pos rfl]
        exact get?_eq_none_of_lt hkey
      · simp [get?, ho]
    · rename_i hne
      simp only [get?, ih hrest]
      by_cases hk : other = key
      · have : ¬ key = name := fun h => hne h.symm
        simp [hk, this]
      · simp [hk]

theorem length_insert (name : String) (value : α) {entries : List (String × α)}
    (h : Ascending entries) :
    (insert name value entries).length =
      if (get? name entries).isSome then entries.length else entries.length + 1 := by
  induction entries with
  | nil => simp [insert, get?]
  | cons head rest ih =>
    obtain ⟨key, old⟩ := head
    obtain ⟨hkey, hrest⟩ := ascending_cons.mp h
    simp only [insert]
    split
    · rename_i hlt
      have hnone : get? name ((key, old) :: rest) = none := by
        apply get?_eq_none_of_lt
        intro e he
        rcases List.mem_cons.mp he with rfl | he
        · exact hlt
        · exact String.lt_trans hlt (hkey e he)
      simp [hnone]
    · split
      · rename_i heq
        simp [get?, heq]
      · rename_i hne
        simp only [get?, if_neg hne, List.length_cons, ih hrest]
        split <;> rfl

theorem length_erase (name : String) (entries : List (String × α)) :
    (erase name entries).length + (if (get? name entries).isSome then 1 else 0) =
      entries.length := by
  induction entries with
  | nil => simp [erase, get?]
  | cons head rest ih =>
    obtain ⟨key, old⟩ := head
    simp only [erase, get?]
    split
    · simp
    · simp only [List.length_cons]
      omega

theorem mem_of_get? {name : String} {value : α} {entries : List (String × α)}
    (h : get? name entries = some value) : (name, value) ∈ entries := by
  induction entries with
  | nil => simp [get?] at h
  | cons head rest ih =>
    obtain ⟨key, old⟩ := head
    simp only [get?] at h
    split at h
    · rename_i heq
      obtain rfl := Option.some.inj h
      exact heq ▸ List.mem_cons_self
    · exact List.mem_cons_of_mem _ (ih h)

theorem get?_of_mem {name : String} {value : α} {entries : List (String × α)}
    (h : Ascending entries) (hm : (name, value) ∈ entries) : get? name entries = some value := by
  induction entries with
  | nil => simp at hm
  | cons head rest ih =>
    obtain ⟨key, old⟩ := head
    obtain ⟨hkey, hrest⟩ := ascending_cons.mp h
    simp only [get?]
    rcases List.mem_cons.mp hm with heq | hm
    · obtain ⟨rfl, rfl⟩ := Prod.mk.inj heq
      simp
    · have : ¬ name = key := fun heq => String.lt_irrefl key (heq ▸ hkey _ hm)
      simp [this, ih hrest hm]

theorem ext_get? {a b : List (String × α)} (ha : Ascending a) (hb : Ascending b)
    (h : ∀ name, get? name a = get? name b) : a = b := by
  induction a generalizing b with
  | nil =>
    cases b with
    | nil => rfl
    | cons head rest =>
      obtain ⟨key, value⟩ := head
      have := h key
      simp [get?] at this
  | cons x xs ih =>
    obtain ⟨kx, vx⟩ := x
    obtain ⟨hx, hxs⟩ := ascending_cons.mp ha
    cases b with
    | nil =>
      have := h kx
      simp [get?] at this
    | cons y ys =>
      obtain ⟨ky, vy⟩ := y
      obtain ⟨hy, hys⟩ := ascending_cons.mp hb
      have hkey : kx = ky := by
        have hfst := h kx
        have hsnd := h ky
        apply Classical.byContradiction
        intro hne
        have hne' : ¬ ky = kx := fun h => hne h.symm
        simp only [get?, if_pos, if_neg hne] at hfst
        simp only [get?, if_pos, if_neg hne'] at hsnd
        have hxin := mem_of_get? hfst.symm
        have hyin := mem_of_get? hsnd
        exact String.lt_irrefl kx (String.lt_trans (hx _ hyin) (hy _ hxin))
      subst hkey
      have hval : vx = vy := by
        have := h kx
        simpa [get?] using this
      subst hval
      refine congrArg _ (ih hxs hys ?_)
      intro name
      by_cases hn : name = kx
      · subst hn
        rw [get?_eq_none_of_lt hx, get?_eq_none_of_lt hy]
      · have := h name
        simpa [get?, hn] using this

end Entries

/-! ## The map -/

/-- **A finite map from names**, its entries strictly ascending by name. -/
structure NameMap (α : Type u) where
  entries : List (String × α)
  ascending : Entries.Ascending entries

namespace NameMap

variable {α : Type u} {β : Type v}

def empty : NameMap α := ⟨[], Entries.ascending_nil⟩

instance : Inhabited (NameMap α) := ⟨empty⟩

/-- What stands under `name`. -/
def get? (map : NameMap α) (name : String) : Option α := Entries.get? name map.entries

def contains (map : NameMap α) (name : String) : Bool := (map.get? name).isSome

/-- Puts `value` under `name`, in place of what stood there. -/
def insert (map : NameMap α) (name : String) (value : α) : NameMap α :=
  ⟨Entries.insert name value map.entries, Entries.ascending_insert name value map.ascending⟩

/-- Leaves nothing under `name`. -/
def erase (map : NameMap α) (name : String) : NameMap α :=
  ⟨Entries.erase name map.entries, Entries.ascending_erase name map.ascending⟩

/-- Reads entries in order, so that the last of several values under one name stays. -/
def ofList (entries : List (String × α)) : NameMap α :=
  entries.foldl (fun map e => map.insert e.1 e.2) empty

/-- The names in ascending order. -/
def names (map : NameMap α) : List String := map.entries.map Prod.fst

/-- The values in the order of their names. -/
def values (map : NameMap α) : List α := map.entries.map Prod.snd

def size (map : NameMap α) : Nat := map.entries.length

def isEmpty (map : NameMap α) : Bool := map.entries.isEmpty

/-! ### What each operation does to `get?` -/

@[simp] theorem get?_empty (name : String) : (empty : NameMap α).get? name = none := rfl

@[simp] theorem get?_insert (map : NameMap α) (name other : String) (value : α) :
    (map.insert name value).get? other = if other = name then some value else map.get? other :=
  Entries.get?_insert name other value

@[simp] theorem get?_erase (map : NameMap α) (name other : String) :
    (map.erase name).get? other = if other = name then none else map.get? other :=
  Entries.get?_erase name other map.ascending

/-- An insertion adds an entry unless the name is taken. -/
theorem size_insert (map : NameMap α) (name : String) (value : α) :
    (map.insert name value).size = if map.contains name then map.size else map.size + 1 :=
  Entries.length_insert name value map.ascending

/-- An erasure drops an entry if the name is taken. -/
theorem size_erase (map : NameMap α) (name : String) :
    (map.erase name).size + (if map.contains name then 1 else 0) = map.size :=
  Entries.length_erase name map.entries

/-- Two maps that look up the same are the same. -/
theorem ext_get? {a b : NameMap α} (h : ∀ name, a.get? name = b.get? name) : a = b := by
  obtain ⟨ea, ha⟩ := a
  obtain ⟨eb, hb⟩ := b
  obtain rfl : ea = eb := Entries.ext_get? ha hb h
  rfl

theorem mem_entries_iff {map : NameMap α} {name : String} {value : α} :
    (name, value) ∈ map.entries ↔ map.get? name = some value :=
  ⟨Entries.get?_of_mem map.ascending, Entries.mem_of_get?⟩

theorem contains_iff {map : NameMap α} {name : String} :
    map.contains name = true ↔ ∃ value, map.get? name = some value := by
  rw [contains, Option.isSome_iff_exists]

theorem mem_names_iff {map : NameMap α} {name : String} :
    name ∈ map.names ↔ map.contains name = true := by
  rw [contains_iff, names, List.mem_map]
  constructor
  · rintro ⟨⟨key, value⟩, hmem, rfl⟩
    exact ⟨value, mem_entries_iff.mp hmem⟩
  · rintro ⟨value, h⟩
    exact ⟨(name, value), mem_entries_iff.mpr h, rfl⟩

/-- The names strictly ascend. -/
theorem names_pairwise (map : NameMap α) : map.names.Pairwise (· < ·) :=
  List.pairwise_map.mpr map.ascending

/-- No name occurs twice. -/
theorem names_nodup (map : NameMap α) : map.names.Nodup := by
  refine map.names_pairwise.imp ?_
  intro a b hlt heq
  exact String.lt_irrefl b (heq ▸ hlt)

end NameMap

end Casewise
