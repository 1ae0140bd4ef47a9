import Mathlib.Data.List.Duplicate
import Mathlib.Logic.Relation
import Casewise.Proofs.RoundTrip

/-!
# Casewise.Proofs.Members -- suites are read by the names of their members

A suite and each of its functions are records: the reader asks for the members that it knows by
name, and for nothing else. So one suite can be written in many ways. Members may change places,
members that nobody asks for may be added, and a member that says what is assumed anyway may be
left out, in the suite and in each of its functions. `Suite.Rewrite` is one such change, and
what it generates as an equivalence is what the reader cannot see.

What the reader does see is said by `Suite.Reads` and `FunctionEntry.Reads`, in terms of the only
member of a name and of names that no member has. Two things are not up to names, and their order
is kept: the functions of a suite, and the data sets of a function, which are members of a table
but no fields of a record. There a repeated name is nothing wrong, while a record that repeats one
of its fields is not read at all (`Suite.Broken`).
-/

namespace Casewise

universe u

/-! ## Members of a name -/

/-- **The only member of a name.** -/
def OnlyMember {α : Type u} (members : List (String × α)) (name : String) (a : α) : Prop :=
  ∃ before after, members = before ++ (name, a) :: after ∧
    name ∉ before.map Prod.fst ∧ name ∉ after.map Prod.fst

/-- Members among which none has the name. -/
def Lacks {α : Type u} (members : List (String × α)) (name : String) : Prop :=
  name ∉ members.map Prod.fst

instance {α : Type u} (members : List (String × α)) (name : String) :
    Decidable (Lacks members name) :=
  inferInstanceAs (Decidable (name ∉ members.map Prod.fst))

/-- Members of which several have the name. -/
def Repeats {α : Type u} (members : List (String × α)) (name : String) : Prop :=
  List.Duplicate name (members.map Prod.fst)

section

variable {α : Type u} {members : List (String × α)} {name : String} {a : α}

theorem lacks_iff_filter_eq_nil :
    Lacks members name ↔ members.filter (fun m => m.1 == name) = [] := by
  rw [Lacks, List.filter_eq_nil_iff, List.mem_map]
  simp only [not_exists, not_and, beq_iff_eq]

theorem OnlyMember.not_lacks (h : OnlyMember members name a) : ¬ Lacks members name := by
  obtain ⟨before, after, rfl, _⟩ := h
  intro hlacks
  exact hlacks (List.mem_map_of_mem (List.mem_append_right before List.mem_cons_self))

theorem OnlyMember.not_repeats (h : OnlyMember members name a) : ¬ Repeats members name := by
  obtain ⟨before, after, rfl, hbefore, hafter⟩ := h
  rw [Repeats, List.duplicate_iff_two_le_count, List.map_append, List.map_cons, List.count_append,
    List.count_cons_self, List.count_eq_zero_of_not_mem hbefore,
    List.count_eq_zero_of_not_mem hafter]
  decide

theorem Lacks.not_repeats (h : Lacks members name) : ¬ Repeats members name :=
  fun hrepeats => h hrepeats.mem

theorem onlyMember_iff_filter_eq :
    OnlyMember members name a ↔ members.filter (fun m => m.1 == name) = [(name, a)] := by
  rw [List.filter_eq_cons_iff]
  constructor
  · rintro ⟨before, after, rfl, hbefore, hafter⟩
    refine ⟨before, after, rfl, ?_, beq_self_eq_true name, lacks_iff_filter_eq_nil.mp hafter⟩
    intro m hm hname
    exact hbefore (beq_iff_eq.mp hname ▸ List.mem_map_of_mem hm)
  · rintro ⟨before, after, rfl, hbefore, _, hafter⟩
    refine ⟨before, after, rfl, ?_, lacks_iff_filter_eq_nil.mpr hafter⟩
    intro hmem
    obtain ⟨m, hm, hname⟩ := List.mem_map.mp hmem
    exact hbefore m hm (beq_iff_eq.mpr hname)

theorem OnlyMember.eq_of_mem {b : α} (h : OnlyMember members name a) (hmem : (name, b) ∈ members) :
    a = b := by
  have hfound : (name, b) ∈ members.filter fun m => m.1 == name :=
    List.mem_filter.mpr ⟨hmem, beq_self_eq_true name⟩
  rw [onlyMember_iff_filter_eq.mp h, List.mem_singleton] at hfound
  exact (Prod.mk.inj hfound).2.symm

end

namespace Source

variable {T α : Type} {members others : List (String × T)} {name : String}

theorem member?_eq_none_iff_lacks : member? name members = some none ↔ Lacks members name := by
  rw [lacks_iff_filter_eq_nil, member?]
  cases members.filter fun m => m.1 == name with
  | nil => simp
  | cons m rest => cases rest <;> simp

theorem member?_eq_some_iff {t : T} :
    member? name members = some (some t) ↔ OnlyMember members name t := by
  have hname : ∀ m ∈ members.filter (fun m => m.1 == name), m.1 = name := by
    intro m hm
    exact beq_iff_eq.mp (List.mem_filter.mp hm).2
  rw [onlyMember_iff_filter_eq, member?]
  generalize members.filter (fun m => m.1 == name) = found at hname
  cases found with
  | nil => simp
  | cons m rest =>
    obtain ⟨key, d⟩ := m
    obtain rfl : key = name := hname _ List.mem_cons_self
    cases rest <;> simp

/-- Which member is found does not depend on the order of members. -/
theorem member?_eq_of_perm (h : members.Perm others) :
    member? name members = member? name others := by
  have hfound := h.filter fun m => m.1 == name
  rw [member?, member?]
  generalize members.filter (fun m => m.1 == name) = found at hfound
  generalize others.filter (fun m => m.1 == name) = found' at hfound
  cases found with
  | nil => rw [List.nil_perm.mp hfound]
  | cons m rest =>
    cases rest with
    | nil => rw [List.singleton_perm.mp hfound]
    | cons n rest =>
      -- several are no answer, in whatever order
      have hlength := hfound.length_eq
      cases found' with
      | nil => cases hlength
      | cons m' rest' =>
        cases rest' with
        | nil => cases hlength
        | cons => rfl

/-- A member of another name makes no difference. -/
theorem member?_insert_of_ne {other : String} (h : other ≠ name)
    (before after : List (String × T)) (t : T) :
    member? name (before ++ (other, t) :: after) = member? name (before ++ after) := by
  have hskip : ((other, t) :: after).filter (fun m => m.1 == name) =
      after.filter fun m => m.1 == name := List.filter_cons_of_neg (by simpa using h)
  rw [member?, member?, List.filter_append, List.filter_append, hskip]

theorem member?_insert_self {before after : List (String × T)}
    (h : Lacks (before ++ after) name) (t : T) :
    member? name (before ++ (name, t) :: after) = some (some t) := by
  rw [Lacks, List.map_append, List.mem_append, not_or] at h
  exact member?_eq_some_iff.mpr ⟨before, after, rfl, h⟩

/-- Either the one member of a name is found in its place, or no member is, whatever it says. -/
theorem member?_place (name : String) (before after : List (String × T)) :
    (∀ t : T, member? name (before ++ (name, t) :: after) = some (some t)) ∨
    ∀ t : T, member? name (before ++ (name, t) :: after) = none := by
  have hfound : ∀ t : T, (before ++ (name, t) :: after).filter (fun m => m.1 == name) =
      before.filter (fun m => m.1 == name) ++ (name, t) :: after.filter fun m => m.1 == name := by
    intro t
    have hself : ((name, t) :: after).filter (fun m => m.1 == name) =
        (name, t) :: after.filter fun m => m.1 == name :=
      List.filter_cons_of_pos (beq_self_eq_true name)
    rw [List.filter_append, hself]
  simp only [member?, hfound]
  cases before.filter fun m => m.1 == name with
  | nil =>
    cases after.filter fun m => m.1 == name with
    | nil => exact .inl fun _ => rfl
    | cons => exact .inr fun _ => rfl
  | cons m rest => cases rest <;> exact .inr fun _ => rfl

variable {read : T → Option α} {a : α}

/-- **A member that has to be there** is read just if it is the only one of its name. -/
theorem required?_eq_some_iff :
    required? name read members = some a ↔ ∃ t, OnlyMember members name t ∧ read t = some a := by
  simp only [required?, bind, Option.bind_eq_some_iff]
  constructor
  · rintro ⟨_, hmember, t, rfl, hread⟩
    exact ⟨t, member?_eq_some_iff.mp hmember, hread⟩
  · rintro ⟨t, honly, hread⟩
    exact ⟨some t, member?_eq_some_iff.mpr honly, t, rfl, hread⟩

/-- **A member that may be left out** is read just if it is the only one of its name, or if there is
none and the default is meant. -/
theorem optional?_eq_some_iff {default : α} :
    optional? name default read members = some a ↔
      (Lacks members name ∧ a = default) ∨
        ∃ t, OnlyMember members name t ∧ read t = some a := by
  simp only [optional?, bind, Option.bind_eq_some_iff]
  constructor
  · rintro ⟨found, hmember, hread⟩
    cases found with
    | none => exact .inl ⟨member?_eq_none_iff_lacks.mp hmember, (Option.some.inj hread).symm⟩
    | some t => exact .inr ⟨t, member?_eq_some_iff.mp hmember, hread⟩
  · rintro (⟨hlacks, rfl⟩ | ⟨t, honly, hread⟩)
    · exact ⟨none, member?_eq_none_iff_lacks.mpr hlacks, rfl⟩
    · exact ⟨some t, member?_eq_some_iff.mpr honly, hread⟩

theorem not_repeats_of_required? (h : required? name read members = some a) :
    ¬ Repeats members name := by
  obtain ⟨t, honly, _⟩ := required?_eq_some_iff.mp h
  exact honly.not_repeats

theorem not_lacks_of_required? (h : required? name read members = some a) :
    ¬ Lacks members name := by
  obtain ⟨t, honly, _⟩ := required?_eq_some_iff.mp h
  exact honly.not_lacks

theorem not_repeats_of_optional? {default : α} (h : optional? name default read members = some a) :
    ¬ Repeats members name := by
  rcases optional?_eq_some_iff.mp h with ⟨hlacks, _⟩ | ⟨t, honly, _⟩
  · exact hlacks.not_repeats
  · exact honly.not_repeats

/-- What a member says may be said otherwise. -/
theorem optional?_replace {default : α} {before after : List (String × T)} {t u : T}
    (h : read t = read u) :
    optional? name default read (before ++ (name, t) :: after) =
      optional? name default read (before ++ (name, u) :: after) := by
  rw [optional?, optional?]
  rcases member?_place name before after with hone | hseveral
  · rw [hone, hone]
    exact h
  · rw [hseveral, hseveral]

end Source

/-! ## One record written in several ways -/

/-- **One change to how a record is written.** Its members change places; one is added that is no
field of it; or one is added that says of a field what is assumed where the field is missing. -/
inductive Rewritten (fields : List String) (defaults : List (String × Datum)) :
    List (String × Datum) → List (String × Datum) → Prop where
  | reordered {members others : List (String × Datum)} (perm : members.Perm others) :
    Rewritten fields defaults members others
  | added {before after : List (String × Datum)} {name : String} (d : Datum)
    (undeclared : name ∉ fields) :
    Rewritten fields defaults (before ++ after) (before ++ (name, d) :: after)
  | spelledOut {before after : List (String × Datum)} {name : String} {d : Datum}
    (assumed : (name, d) ∈ defaults) (missing : Lacks (before ++ after) name) :
    Rewritten fields defaults (before ++ after) (before ++ (name, d) :: after)

namespace Rewritten

variable {fields : List String} {defaults members others : List (String × Datum)} {name : String}
  {α : Type} {read : Datum → Option α}

/-- A field without a default is read the same. -/
theorem required?_eq (h : Rewritten fields defaults members others) (hfield : name ∈ fields)
    (hdefault : Lacks defaults name) :
    Source.required? name read members = Source.required? name read others := by
  have hmember : Source.member? name members = Source.member? name others := by
    cases h with
    | reordered perm => exact Source.member?_eq_of_perm perm
    | @added before after other d undeclared =>
      have hne : other ≠ name := fun heq => undeclared (heq ▸ hfield)
      exact (Source.member?_insert_of_ne hne before after d).symm
    | @spelledOut before after other d assumed _ =>
      have hne : other ≠ name := by
        rintro rfl
        exact hdefault (List.mem_map_of_mem assumed)
      exact (Source.member?_insert_of_ne hne before after d).symm
  rw [Source.required?, Source.required?, hmember]

/-- A field is read the same if what is written for its default is read as the default. -/
theorem optional?_eq {default : α} (h : Rewritten fields defaults members others)
    (hfield : name ∈ fields)
    (hdefault : ∀ d, (name, d) ∈ defaults → read d = some default) :
    Source.optional? name default read members = Source.optional? name default read others := by
  cases h with
  | reordered perm => rw [Source.optional?, Source.optional?, Source.member?_eq_of_perm perm]
  | @added before after other d undeclared =>
    have hne : other ≠ name := fun heq => undeclared (heq ▸ hfield)
    rw [Source.optional?, Source.optional?, Source.member?_insert_of_ne hne]
  | @spelledOut before after other d assumed missing =>
    by_cases hname : other = name
    · subst hname
      rw [Source.optional?, Source.optional?, Source.member?_insert_self missing,
        Source.member?_eq_none_iff_lacks.mpr missing]
      exact (hdefault d assumed).symm
    · rw [Source.optional?, Source.optional?, Source.member?_insert_of_ne hname]

end Rewritten

/-- **A record that cannot be read**, whatever its members say: it repeats a field, or a field is
missing that has to be there. -/
def Broken (fields required : List String) (members : List (String × Datum)) : Prop :=
  (∃ field ∈ fields, Repeats members field) ∨ ∃ field ∈ required, Lacks members field

variable {V : Type} [Cell V]

/-! ## Functions -/

namespace FunctionEntry

/-- What is assumed where a field is missing. -/
def defaults : List (String × Datum) :=
  [("doc", .null), ("parameters", .list []), ("lenient", .truth false)]

/-- The fields that have to be there. -/
def required : List String := ["name", "data_sets"]

/-- **The function that members say.** -/
structure Reads (members : List (String × Datum)) (f : FunctionEntry V) : Prop where
  name : OnlyMember members "name" (.text f.name)
  doc : (Lacks members "doc" ∧ f.doc = none) ∨ (OnlyMember members "doc" .null ∧ f.doc = none) ∨
    ∃ doc, OnlyMember members "doc" (.text doc) ∧ f.doc = some doc
  parameters : (Lacks members "parameters" ∧ f.parameters = []) ∨
    OnlyMember members "parameters" (.list (f.parameters.map .text))
  /-- One data set for each member of the table, in order, repeated names kept. -/
  dataSets : ∃ sets, OnlyMember members "data_sets" (.table sets) ∧
    List.Forall₂ (fun m set => set.1 = m.1 ∧ Row.Reads m.2 set.2) sets f.dataSets.entries
  lenient : (Lacks members "lenient" ∧ f.lenient = false) ∨
    OnlyMember members "lenient" (.truth f.lenient)

theorem text?_eq_some_iff {d : Datum} {s : String} : Source.text? d = some s ↔ d = .text s := by
  cases d <;> simp [Source.text?]

theorem texts?_eq_some_iff {d : Datum} {texts : List String} :
    texts? d = some texts ↔ d = .list (texts.map .text) := by
  constructor
  · intro h
    cases d with
    | list items =>
      have hitems : items.mapM Source.text? = some texts := h
      rw [mapM_eq_some_iff] at hitems
      simp only [text?_eq_some_iff] at hitems
      rw [Datum.list.injEq, ← List.forall₂_eq_eq_eq, List.forall₂_map_right_iff]
      exact hitems
    | _ => cases h
  · rintro rfl
    exact texts?_map_text texts

theorem optionalText?_eq_some_iff {d : Datum} {doc : Option String} :
    Source.optionalText? d = some doc ↔
      (d = .null ∧ doc = none) ∨ ∃ s, d = .text s ∧ doc = some s := by
  cases d <;> simp [Source.optionalText?, eq_comm]

theorem flag?_eq_some_iff {d : Datum} {b : Bool} : Source.flag? d = some b ↔ d = .truth b := by
  cases d <;> simp [Source.flag?]

theorem read?_table_eq (members : List (String × Datum)) :
    (read? (Datum.table members) : Option (FunctionEntry V)) = do
      let name ← Source.required? "name" Source.text? members
      let doc ← Source.optional? "doc" none Source.optionalText? members
      let parameters ← Source.optional? "parameters" [] texts? members
      let dataSets ← Source.required? "data_sets" DataSets.read? members
      let lenient ← Source.optional? "lenient" false Source.flag? members
      return { name, doc, parameters, dataSets, lenient } := rfl

/-- A function is read field by field. -/
theorem read?_table_eq_some_iff_fields {members : List (String × Datum)} {f : FunctionEntry V} :
    read? (Datum.table members) = some f ↔
      Source.required? "name" Source.text? members = some f.name ∧
      Source.optional? "doc" none Source.optionalText? members = some f.doc ∧
      Source.optional? "parameters" [] texts? members = some f.parameters ∧
      Source.required? "data_sets" DataSets.read? members = some f.dataSets ∧
      Source.optional? "lenient" false Source.flag? members = some f.lenient := by
  rw [read?_table_eq]
  simp only [bind, Option.bind_eq_some_iff]
  constructor
  · rintro ⟨_, hname, _, hdoc, _, hparameters, _, hsets, _, hlenient, heq⟩
    obtain rfl := Option.some.inj heq
    exact ⟨hname, hdoc, hparameters, hsets, hlenient⟩
  · rintro ⟨hname, hdoc, hparameters, hsets, hlenient⟩
    exact ⟨_, hname, _, hdoc, _, hparameters, _, hsets, _, hlenient, rfl⟩

/-- **A function is read just if it is the one that the members say.** -/
theorem read?_table_eq_some_iff {members : List (String × Datum)} {f : FunctionEntry V} :
    read? (Datum.table members) = some f ↔ Reads members f := by
  have hname : Source.required? "name" Source.text? members = some f.name ↔
      OnlyMember members "name" (.text f.name) := by
    simp only [Source.required?_eq_some_iff, text?_eq_some_iff, exists_eq_right]
  have hdoc : Source.optional? "doc" none Source.optionalText? members = some f.doc ↔
      (Lacks members "doc" ∧ f.doc = none) ∨ (OnlyMember members "doc" .null ∧ f.doc = none) ∨
        ∃ doc, OnlyMember members "doc" (.text doc) ∧ f.doc = some doc := by
    rw [Source.optional?_eq_some_iff]
    refine or_congr_right ?_
    simp only [optionalText?_eq_some_iff]
    constructor
    · rintro ⟨_, honly, ⟨rfl, hnone⟩ | ⟨doc, rfl, hsome⟩⟩
      · exact .inl ⟨honly, hnone⟩
      · exact .inr ⟨doc, honly, hsome⟩
    · rintro (⟨honly, hnone⟩ | ⟨doc, honly, hsome⟩)
      · exact ⟨_, honly, .inl ⟨rfl, hnone⟩⟩
      · exact ⟨_, honly, .inr ⟨doc, rfl, hsome⟩⟩
  have hparameters : Source.optional? "parameters" [] texts? members = some f.parameters ↔
      (Lacks members "parameters" ∧ f.parameters = []) ∨
        OnlyMember members "parameters" (.list (f.parameters.map .text)) := by
    simp only [Source.optional?_eq_some_iff, texts?_eq_some_iff, exists_eq_right]
  have hsets : Source.required? "data_sets" DataSets.read? members = some f.dataSets ↔
      ∃ sets, OnlyMember members "data_sets" (.table sets) ∧
        List.Forall₂ (fun m set => set.1 = m.1 ∧ Row.Reads m.2 set.2) sets f.dataSets.entries := by
    simp only [Source.required?_eq_some_iff, DataSets.read?_eq_some_iff]
    constructor
    · rintro ⟨_, honly, sets, rfl, hrows⟩
      exact ⟨sets, honly, hrows⟩
    · rintro ⟨sets, honly, hrows⟩
      exact ⟨_, honly, sets, rfl, hrows⟩
  have hlenient : Source.optional? "lenient" false Source.flag? members = some f.lenient ↔
      (Lacks members "lenient" ∧ f.lenient = false) ∨
        OnlyMember members "lenient" (.truth f.lenient) := by
    simp only [Source.optional?_eq_some_iff, flag?_eq_some_iff, exists_eq_right]
  rw [read?_table_eq_some_iff_fields, hname, hdoc, hparameters, hsets, hlenient]
  constructor
  · rintro ⟨hname, hdoc, hparameters, hsets, hlenient⟩
    exact ⟨hname, hdoc, hparameters, hsets, hlenient⟩
  · rintro ⟨hname, hdoc, hparameters, hsets, hlenient⟩
    exact ⟨hname, hdoc, hparameters, hsets, hlenient⟩

/-- **A function is read the same** however its record is written. -/
theorem read?_eq_of_rewritten {members others : List (String × Datum)}
    (h : Rewritten fields defaults members others) :
    (read? (Datum.table members) : Option (FunctionEntry V)) = read? (Datum.table others) := by
  have hdoc : ∀ d, ("doc", d) ∈ defaults → Source.optionalText? d = some none := by
    simp [defaults, Source.optionalText?]
  have hparameters : ∀ d, ("parameters", d) ∈ defaults → texts? d = some [] := by
    simp only [texts?_eq_some_iff]
    simp [defaults]
  have hlenient : ∀ d, ("lenient", d) ∈ defaults → Source.flag? d = some false := by
    simp [defaults, Source.flag?]
  rw [read?_table_eq, read?_table_eq, h.required?_eq (by decide) (by decide),
    h.optional?_eq (by decide) hdoc, h.optional?_eq (by decide) hparameters,
    h.required?_eq (by decide) (by decide), h.optional?_eq (by decide) hlenient]

theorem read?_eq_none_of_broken {members : List (String × Datum)}
    (h : Broken fields required members) :
    (read? (Datum.table members) : Option (FunctionEntry V)) = none := by
  rw [Option.eq_none_iff_forall_ne_some]
  intro f hread
  obtain ⟨hname, hdoc, hparameters, hsets, hlenient⟩ := read?_table_eq_some_iff_fields.mp hread
  rcases h with ⟨field, hfield, hrepeats⟩ | ⟨field, hfield, hlacks⟩
  · simp only [fields, List.mem_cons, List.not_mem_nil, or_false] at hfield
    rcases hfield with rfl | rfl | rfl | rfl | rfl
    · exact Source.not_repeats_of_required? hname hrepeats
    · exact Source.not_repeats_of_optional? hdoc hrepeats
    · exact Source.not_repeats_of_optional? hparameters hrepeats
    · exact Source.not_repeats_of_required? hsets hrepeats
    · exact Source.not_repeats_of_optional? hlenient hrepeats
  · simp only [required, List.mem_cons, List.not_mem_nil, or_false] at hfield
    rcases hfield with rfl | rfl
    · exact Source.not_lacks_of_required? hname hlacks
    · exact Source.not_lacks_of_required? hsets hlacks

end FunctionEntry

/-! ## Suites -/

namespace Suite

/-- What is assumed where a field is missing. -/
def defaults : List (String × Datum) := [("functions", .list [])]

/-- The fields that have to be there. -/
def required : List String := ["module"]

/-- **The suite that members say.** -/
structure Reads (members : List (String × Datum)) (s : Suite V) : Prop where
  module : OnlyMember members "module" (.text s.module)
  /-- One function for each item of the list, in order. -/
  functions : (Lacks members "functions" ∧ s.functions = []) ∨
    ∃ items, OnlyMember members "functions" (.list items) ∧
      List.Forall₂ (fun d f => FunctionEntry.read? d = some f) items s.functions

/-- **One change to how a suite is written**: to its own record, or to the record of one of its
functions. -/
inductive Rewrite : Datum → Datum → Prop where
  | suite {members others : List (String × Datum)}
    (change : Rewritten fields defaults members others) :
    Rewrite (.table members) (.table others)
  | function {before after : List (String × Datum)} {previous next : List Datum}
    {members others : List (String × Datum)}
    (change : Rewritten FunctionEntry.fields FunctionEntry.defaults members others) :
    Rewrite
      (.table (before ++ ("functions", .list (previous ++ .table members :: next)) :: after))
      (.table (before ++ ("functions", .list (previous ++ .table others :: next)) :: after))

/-- **A suite with a broken record**, its own or that of one of its functions. -/
inductive Faulty : Datum → Prop where
  | suite {members : List (String × Datum)} (broken : Broken fields required members) :
    Faulty (.table members)
  | function {members entry : List (String × Datum)} {items : List Datum}
    (functions : ("functions", .list items) ∈ members) (item : .table entry ∈ items)
    (broken : Broken FunctionEntry.fields FunctionEntry.required entry) :
    Faulty (.table members)

theorem functions?_eq_some_iff {d : Datum} {functions : List (FunctionEntry V)} :
    functions? d = some functions ↔
      ∃ items, d = .list items ∧
        List.Forall₂ (fun d f => FunctionEntry.read? d = some f) items functions := by
  constructor
  · intro h
    cases d with
    | list items =>
      have hitems : items.mapM FunctionEntry.read? = some functions := h
      exact ⟨items, rfl, mapM_eq_some_iff.mp hitems⟩
    | _ => cases h
  · rintro ⟨items, rfl, hitems⟩
    have hread : items.mapM FunctionEntry.read? = some functions := mapM_eq_some_iff.mpr hitems
    exact hread

theorem read?_table_eq (members : List (String × Datum)) :
    (read? (Datum.table members) : Option (Suite V)) = do
      let module ← Source.required? "module" Source.text? members
      let functions ← Source.optional? "functions" [] functions? members
      return { module, functions } := rfl

/-- A suite is read field by field. -/
theorem read?_table_eq_some_iff_fields {members : List (String × Datum)} {s : Suite V} :
    read? (Datum.table members) = some s ↔
      Source.required? "module" Source.text? members = some s.module ∧
      Source.optional? "functions" [] functions? members = some s.functions := by
  rw [read?_table_eq]
  simp only [bind, Option.bind_eq_some_iff]
  constructor
  · rintro ⟨_, hmodule, _, hfunctions, heq⟩
    obtain rfl := Option.some.inj heq
    exact ⟨hmodule, hfunctions⟩
  · rintro ⟨hmodule, hfunctions⟩
    exact ⟨_, hmodule, _, hfunctions, rfl⟩

/-- **A suite is read just if it is the one that the members say.** -/
theorem read?_table_eq_some_iff {members : List (String × Datum)} {s : Suite V} :
    read? (Datum.table members) = some s ↔ Reads members s := by
  have hmodule : Source.required? "module" Source.text? members = some s.module ↔
      OnlyMember members "module" (.text s.module) := by
    simp only [Source.required?_eq_some_iff, FunctionEntry.text?_eq_some_iff, exists_eq_right]
  have hfunctions : Source.optional? "functions" [] functions? members = some s.functions ↔
      (Lacks members "functions" ∧ s.functions = []) ∨
        ∃ items, OnlyMember members "functions" (.list items) ∧
          List.Forall₂ (fun d f => FunctionEntry.read? d = some f) items s.functions := by
    rw [Source.optional?_eq_some_iff]
    refine or_congr_right ?_
    simp only [functions?_eq_some_iff]
    constructor
    · rintro ⟨_, honly, items, rfl, hitems⟩
      exact ⟨items, honly, hitems⟩
    · rintro ⟨items, honly, hitems⟩
      exact ⟨_, honly, items, rfl, hitems⟩
  rw [read?_table_eq_some_iff_fields, hmodule, hfunctions]
  constructor
  · rintro ⟨hmodule, hfunctions⟩
    exact ⟨hmodule, hfunctions⟩
  · rintro ⟨hmodule, hfunctions⟩
    exact ⟨hmodule, hfunctions⟩

/-- One function of a list may be written otherwise. -/
theorem functions?_replace {previous next : List Datum} {d other : Datum}
    (h : (FunctionEntry.read? d : Option (FunctionEntry V)) = FunctionEntry.read? other) :
    (functions? (Datum.list (previous ++ d :: next)) : Option (List (FunctionEntry V))) =
      functions? (Datum.list (previous ++ other :: next)) := by
  show (previous ++ d :: next).mapM FunctionEntry.read? =
    (previous ++ other :: next).mapM FunctionEntry.read?
  rw [List.mapM_append, List.mapM_append, List.mapM_cons, List.mapM_cons, h]

/-- **One change makes no difference to the reader.** -/
theorem read?_eq_of_rewrite {d other : Datum} (h : Rewrite d other) :
    (read? d : Option (Suite V)) = read? other := by
  cases h with
  | suite change =>
    have hfunctions : ∀ d, ("functions", d) ∈ defaults →
        (functions? d : Option (List (FunctionEntry V))) = some [] := by
      simp only [functions?_eq_some_iff]
      simp [defaults]
    rw [read?_table_eq, read?_table_eq, change.required?_eq (by decide) (by decide),
      change.optional?_eq (by decide) hfunctions]
  | @function before after previous next members others change =>
    have hmodule : "functions" ≠ "module" := by decide
    have hentry : (FunctionEntry.read? (Datum.table members) : Option (FunctionEntry V)) =
        FunctionEntry.read? (Datum.table others) := FunctionEntry.read?_eq_of_rewritten change
    have hfunctions : (functions? (Datum.list (previous ++ .table members :: next)) :
        Option (List (FunctionEntry V))) =
        functions? (Datum.list (previous ++ .table others :: next)) := functions?_replace hentry
    rw [read?_table_eq, read?_table_eq, Source.optional?_replace hfunctions, Source.required?,
      Source.required?, Source.member?_insert_of_ne hmodule, Source.member?_insert_of_ne hmodule]

/-- **However a suite is written, it is read the same.** -/
theorem read?_eq_of_eqvGen {d other : Datum} (h : Relation.EqvGen Rewrite d other) :
    (read? d : Option (Suite V)) = read? other := by
  induction h with
  | rel _ _ hchange => exact read?_eq_of_rewrite hchange
  | refl _ => rfl
  | symm _ _ _ ih => exact ih.symm
  | trans _ _ _ _ _ ih ih' => exact ih.trans ih'

/-- **A broken record is not read**, be it of the suite or of a function. -/
theorem read?_eq_none_of_faulty {d : Datum} (h : Faulty d) :
    (read? d : Option (Suite V)) = none := by
  rw [Option.eq_none_iff_forall_ne_some]
  intro s hread
  cases h with
  | suite broken =>
    obtain ⟨hmodule, hfunctions⟩ := read?_table_eq_some_iff_fields.mp hread
    rcases broken with ⟨field, hfield, hrepeats⟩ | ⟨field, hfield, hlacks⟩
    · simp only [fields, List.mem_cons, List.not_mem_nil, or_false] at hfield
      rcases hfield with rfl | rfl
      · exact Source.not_repeats_of_required? hmodule hrepeats
      · exact Source.not_repeats_of_optional? hfunctions hrepeats
    · obtain rfl := List.mem_singleton.mp hfield
      exact Source.not_lacks_of_required? hmodule hlacks
  | @function members entry items hmember hitem broken =>
    rcases (read?_table_eq_some_iff.mp hread).functions with ⟨hlacks, _⟩ | ⟨items', honly, hall⟩
    · exact hlacks (List.mem_map_of_mem hmember)
    · -- the list that is read is the only one, so the broken function is in it
      obtain rfl := Datum.list.inj (honly.eq_of_mem hmember)
      have hitems := exists_mapM_eq_some_iff.mp ⟨s.functions, mapM_eq_some_iff.mpr hall⟩
      obtain ⟨f, hf⟩ := hitems _ hitem
      rw [FunctionEntry.read?_eq_none_of_broken broken] at hf
      cases hf

/-- **A suite is read by the names of its members, and by nothing else.** Suites and functions are
read just as their members say. So a suite is read the same however it is written, and not at all
with a broken record, as data and as JSON text. -/
theorem read_by_name (V : Type) [Cell V] :
    (∀ (members : List (String × Datum)) (s : Suite V),
      read? (Datum.table members) = some s ↔ Reads members s) ∧
    (∀ (members : List (String × Datum)) (f : FunctionEntry V),
      FunctionEntry.read? (Datum.table members) = some f ↔ FunctionEntry.Reads members f) ∧
    (∀ d other : Datum, Relation.EqvGen Rewrite d other →
      (read? d : Option (Suite V)) = read? other ∧
      ∀ origin text otherText : String, Json.parse? text = some d →
        Json.parse? otherText = some other →
        (Format.json.parse origin text : Except Problem (Suite V)) =
          Format.json.parse origin otherText) ∧
    ∀ d : Datum, Faulty d →
      (read? d : Option (Suite V)) = none ∧
      ∀ origin text : String, Json.parse? text = some d →
        (Format.json.parse origin text : Except Problem (Suite V)) =
          .error (.invalidJson origin) := by
  have htext : ∀ {origin text : String} {d : Datum}, Json.parse? text = some d →
      (Format.json.parse origin text : Except Problem (Suite V)) =
        (read? d).elim (.error (.invalidJson origin)) .ok := by
    intro origin text d hparse
    have hread : (Format.json.read? text : Option (Suite V)) = read? d :=
      (congrArg (Option.bind · Loadable.ofDatum?) hparse).trans (Option.bind_some d _)
    rw [Format.parse, hread]
    cases (read? d : Option (Suite V)) <;> rfl
  refine ⟨fun _ _ => read?_table_eq_some_iff, fun _ _ => FunctionEntry.read?_table_eq_some_iff,
    ?_, ?_⟩
  · intro d other hsame
    have hread : (read? d : Option (Suite V)) = read? other := read?_eq_of_eqvGen hsame
    refine ⟨hread, fun origin text otherText hparse hother => ?_⟩
    rw [htext hparse, htext hother, hread]
  · intro d hfaulty
    have hread : (read? d : Option (Suite V)) = none := read?_eq_none_of_faulty hfaulty
    refine ⟨hread, fun origin text hparse => ?_⟩
    rw [htext hparse, hread]
    rfl

/-- Two data sets of one name. -/
def repeatedSets : Datum := .table [("b", .list [.int 2]), ("b", .list [.int 1])]

/-- A suite of one function. -/
def suiteOf (entry : List (String × Datum)) : Datum :=
  .table [("module", .text "m"), ("functions", .list [.table entry])]

/-- A suite that leaves out what it can. -/
def brief : Datum := suiteOf [("name", .text "f"), ("data_sets", repeatedSets)]

/-- The function of that suite, with what is assumed anyway and a member that nobody asks for. -/
def wordyFunctions : String × Datum :=
  ("functions", .list [.table [("lenient", .truth false), ("data_sets", repeatedSets),
    ("name", .text "f"), ("note", .null)]])

/-- The same suite in another order, with a member of its own that nobody asks for. -/
def wordy : Datum := .table [("note", .list [.null]), wordyFunctions, ("module", .text "m")]

/-- The same suite with a doc that is taken back. -/
def doubtful : Datum :=
  suiteOf [("name", .text "f"), ("doc", .text "one"), ("doc", .null), ("data_sets", repeatedSets)]

/-- What the first two say. -/
def briefSuite : Suite Int64 :=
  ⟨"m", [⟨"f", none, [], ⟨[("b", .positional [2]), ("b", .positional [1])]⟩, false⟩]⟩

theorem brief_eqvGen_wordy : Relation.EqvGen Rewrite brief wordy := by
  have hentry {members others : List (String × Datum)}
      (change : Rewritten FunctionEntry.fields FunctionEntry.defaults members others) :
      Relation.EqvGen Rewrite (suiteOf members) (suiteOf others) :=
    .rel _ _ (@Rewrite.function [_] [] [] [] _ _ change)
  have hsuite {members others : List (String × Datum)}
      (change : Rewritten fields defaults members others) :
      Relation.EqvGen Rewrite (.table members) (.table others) := .rel _ _ (.suite change)
  have hnote := hentry
    (@Rewritten.added _ _ [("name", .text "f"), ("data_sets", repeatedSets)] [] "note" .null
      (by decide))
  have hlenient := hentry
    (@Rewritten.spelledOut _ _ []
      [("name", .text "f"), ("data_sets", repeatedSets), ("note", .null)]
      "lenient" (.truth false) (by simp [FunctionEntry.defaults]) (by decide))
  have hmoved := hentry (.reordered (.cons ("lenient", .truth false) (.swap
    ("data_sets", repeatedSets) ("name", .text "f") [("note", .null)])))
  have hadded := hsuite (@Rewritten.added _ _ [] [("module", .text "m"), wordyFunctions] "note"
    (.list [.null]) (by decide))
  have hordered := hsuite
    (.reordered (.cons ("note", .list [.null]) (.swap wordyFunctions ("module", .text "m") [])))
  exact hnote.trans _ _ _ (hlenient.trans _ _ _ (hmoved.trans _ _ _ (hadded.trans _ _ _ hordered)))

/-- Order, additions and defaults make no difference, while a repeated field does, even if the data
sets may repeat a name. -/
theorem brief_read_as_wordy :
    (Relation.EqvGen Rewrite brief wordy ∧
      (Format.json.parse "o" (Json.textOf brief) : Except Problem (Suite Int64)) =
        Format.json.parse "o" (Json.textOf wordy) ∧
      (read? wordy : Option (Suite Int64)) = some briefSuite) ∧
    Faulty doubtful ∧
      (Format.json.parse "o" (Json.textOf doubtful) : Except Problem (Suite Int64)) =
        .error (.invalidJson "o") := by
  obtain ⟨-, -, hsame, hnone⟩ := read_by_name Int64
  have hrepeats : Repeats [("name", .text "f"), ("doc", .text "one"), ("doc", .null),
      ("data_sets", repeatedSets)] "doc" := by
    rw [Repeats, List.duplicate_iff_two_le_count]
    decide
  have hfaulty : Faulty doubtful :=
    .function (.tail _ (.head _)) (.head _) (.inl ⟨"doc", by decide, hrepeats⟩)
  have hparse : ∀ d ∈ [brief, wordy, doubtful], Json.parse? (Json.textOf d) = some d := by
    have hintegral : ∀ d ∈ [brief, wordy, doubtful], d.isIntegral = true := by decide
    have hdepth : ∀ d ∈ [brief, wordy, doubtful], d.depth ≤ Json.depthLimit := by decide
    exact fun d hd => Json.parse?_textOf (hintegral d hd) (hdepth d hd)
  have hbrief := hparse brief (.head _)
  have hwordy := hparse wordy (.tail _ (.head _))
  have hdoubtful := hparse doubtful (.tail _ (.tail _ (.head _)))
  obtain ⟨hread, htexts⟩ := hsame _ _ brief_eqvGen_wordy
  exact ⟨⟨brief_eqvGen_wordy, htexts _ _ _ hbrief hwordy, hread.symm.trans rfl⟩, hfaulty,
    (hnone _ hfaulty).2 _ _ hdoubtful⟩

end Suite

end Casewise
