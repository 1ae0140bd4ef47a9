import Casewise.Datum.Basic

/-!
# Casewise.Datum.Canonical -- data in canonical form

A datum is canonical when every table in it has strictly ascending names, every integer is a word,
every real is finite and nothing is unreadable. `Value` is a canonical datum: the type of an
argument value when a suite leaves the type of its values open.

`Datum.normal?` brings a datum into canonical form. Of several members under one name the last
one counts, a real that is not finite becomes null, and a datum with an unreadable part has no
canonical form.
-/

namespace Casewise

namespace Datum

mutual

/-- Whether a datum is in canonical form. -/
def isCanonical : Datum → Bool
  | .null | .truth _ | .text _ => true
  | .int i => isWord i
  | .real x => x.isFinite
  | .list items => areCanonical items
  | .table members => haveCanonical members && decide (Entries.Ascending members)
  | .unreadable => false

def areCanonical : List Datum → Bool
  | [] => true
  | d :: rest => isCanonical d && areCanonical rest

def haveCanonical : List (String × Datum) → Bool
  | [] => true
  | (_, d) :: rest => isCanonical d && haveCanonical rest

end

mutual

/-- **The canonical form** of a datum, if it has one. -/
def normal? : Datum → Option Datum
  | .null => some .null
  | .truth b => some (.truth b)
  | .int i => if isWord i then some (.int i) else none
  | .real x => some (if x.isFinite then .real x else .null)
  | .text s => some (.text s)
  | .list items => (normalItems? items).map .list
  | .table members =>
    (normalMembers? members).map fun ms => .table (NameMap.ofList ms).entries
  | .unreadable => none

def normalItems? : List Datum → Option (List Datum)
  | [] => some []
  | d :: rest => do return (← normal? d) :: (← normalItems? rest)

def normalMembers? : List (String × Datum) → Option (List (String × Datum))
  | [] => some []
  | (name, d) :: rest => do return (name, ← normal? d) :: (← normalMembers? rest)

end

/-! ## What `normal?` gives is canonical -/

theorem haveCanonical_iff {members : List (String × Datum)} :
    haveCanonical members = true ↔ ∀ e ∈ members, isCanonical e.2 = true := by
  induction members with
  | nil => simp [haveCanonical]
  | cons e rest ih => simp [haveCanonical, ih]

theorem haveCanonical_foldl {members : List (String × Datum)} {map : NameMap Datum}
    (hmap : haveCanonical map.entries = true) (h : haveCanonical members = true) :
    haveCanonical (members.foldl (fun map e => map.insert e.1 e.2) map).entries = true := by
  induction members generalizing map with
  | nil => exact hmap
  | cons e rest ih =>
    rw [haveCanonical_iff] at h
    refine ih ?_ (haveCanonical_iff.mpr fun x hx => h x (List.mem_cons_of_mem _ hx))
    refine haveCanonical_iff.mpr fun x hx => ?_
    rcases Entries.mem_insert hx with rfl | hx
    · exact h e List.mem_cons_self
    · exact haveCanonical_iff.mp hmap x hx

mutual

theorem isCanonical_of_normal? : ∀ {d n : Datum}, normal? d = some n → isCanonical n = true
  | .null, n, h => by obtain rfl := Option.some.inj h; rfl
  | .truth _, n, h => by obtain rfl := Option.some.inj h; rfl
  | .int i, n, h => by
    simp only [normal?] at h
    split at h
    · rename_i hi
      obtain rfl := Option.some.inj h
      exact hi
    · simp at h
  | .real x, n, h => by
    obtain rfl := Option.some.inj h
    split
    · rename_i hx
      exact hx
    · rfl
  | .text _, n, h => by obtain rfl := Option.some.inj h; rfl
  | .list items, n, h => by
    simp only [normal?, Option.map_eq_some_iff] at h
    obtain ⟨ns, hns, rfl⟩ := h
    exact areCanonical_of_normalItems? hns
  | .table members, n, h => by
    simp only [normal?, Option.map_eq_some_iff] at h
    obtain ⟨ms, hms, rfl⟩ := h
    simp only [isCanonical, Bool.and_eq_true, decide_eq_true_eq]
    exact ⟨haveCanonical_foldl rfl (haveCanonical_of_normalMembers? hms),
      (NameMap.ofList ms).ascending⟩

theorem areCanonical_of_normalItems? : ∀ {ds ns : List Datum},
    normalItems? ds = some ns → areCanonical ns = true
  | [], ns, h => by obtain rfl := Option.some.inj h; rfl
  | d :: rest, ns, h => by
    simp only [normalItems?, bind, Option.bind_eq_some_iff] at h
    obtain ⟨m, hm, ms, hms, heq⟩ := h
    obtain rfl := Option.some.inj heq
    simp [areCanonical, isCanonical_of_normal? hm, areCanonical_of_normalItems? hms]

theorem haveCanonical_of_normalMembers? : ∀ {ds ns : List (String × Datum)},
    normalMembers? ds = some ns → haveCanonical ns = true
  | [], ns, h => by obtain rfl := Option.some.inj h; rfl
  | (name, d) :: rest, ns, h => by
    simp only [normalMembers?, bind, Option.bind_eq_some_iff] at h
    obtain ⟨m, hm, ms, hms, heq⟩ := h
    obtain rfl := Option.some.inj heq
    simp [haveCanonical, isCanonical_of_normal? hm, haveCanonical_of_normalMembers? hms]

end

end Datum

/-- **A value of open type**: a datum in canonical form. -/
structure Value where
  datum : Datum
  canonical : datum.isCanonical = true

namespace Value

/-- The canonical form of a datum as a value. -/
def ofDatum? (d : Datum) : Option Value :=
  match h : d.normal? with
  | some n => some ⟨n, Datum.isCanonical_of_normal? h⟩
  | none => none

theorem ofDatum?_eq_some_iff {d : Datum} {v : Value} :
    ofDatum? d = some v ↔ d.normal? = some v.datum := by
  unfold ofDatum?
  split
  · rename_i n h
    obtain ⟨m, hm⟩ := v
    simp [h]
  · rename_i h
    simp [h]

instance : Inhabited Value := ⟨⟨.null, rfl⟩⟩

end Value

end Casewise
