import Casewise.Suite
import Casewise.Proofs.Injection

/-!
# Casewise.Proofs.Building -- what a suite builds, and when it keeps every test

A suite is built function by function. Adding a function takes its name over from whatever has it,
expands the function, and injects the tests, upon which the name is free again. `get?_added` says
this name by name and `size_added` counts it.

Injecting refuses names that are taken, but the name of the function itself is taken over without
a question. If an earlier function has generated a test of that name, the test is gone and nothing
is reported. A suite in which this happens is shadowed. `Complete` says that nothing is lost: every
data set of every function has its test in the namespace, and the namespace has as many entries as
there are data sets. Both halves are needed, since a test that is lost may come back when the
function that generated it stands in the suite once more.

`complete_iff_unshadowed` is the exact law: what is built is complete just if no function is
named like a test that an earlier one generates.
-/

namespace Casewise

open Identifier

variable {V : Type}

/-! ## The names that functions generate -/

/-- The names that a function generates, in the order of its data sets. -/
def FunctionEntry.generatedNames (f : FunctionEntry V) : List String :=
  f.dataSets.names.map (generatedName f.name)

namespace Suite

/-- How many data sets functions have, all in all. -/
def countDataSets : List (FunctionEntry V) → Nat
  | [] => 0
  | f :: rest => f.dataSets.size + countDataSets rest

/-- No function is named like a test that an earlier one generates. -/
def UnshadowedFunctions (functions : List (FunctionEntry V)) : Prop :=
  functions.Pairwise fun earlier later => later.name ∉ earlier.generatedNames

theorem unshadowedFunctions_cons_iff {f : FunctionEntry V} {rest : List (FunctionEntry V)} :
    UnshadowedFunctions (f :: rest) ↔
      (∀ later ∈ rest, later.name ∉ f.generatedNames) ∧ UnshadowedFunctions rest :=
  List.pairwise_cons

/-- **An unshadowed suite**: no function is named like a test that an earlier one generates. -/
def Unshadowed (s : Suite V) : Prop := UnshadowedFunctions s.functions

instance (s : Suite V) : Decidable s.Unshadowed :=
  inferInstanceAs (Decidable (List.Pairwise _ _))

/-! ## Taking a name over -/

/-- The namespace in which a function has taken its name over. -/
def claimed (module : String) (ns : Namespace Unit) (f : FunctionEntry V) : Namespace Unit :=
  (ns.defineFunction (f.testFunction module).origin).2

variable {module : String} {f : FunctionEntry V}

theorem isBare_claimed (ns : Namespace Unit) : (claimed module ns f).IsBare f.name :=
  Namespace.isBare_defineFunction ns (f.testFunction module).origin

theorem get?_claimed (ns : Namespace Unit) (name : String) :
    (claimed module ns f).get? name =
      if name = f.name then some (.function (f.testFunction module).origin) else ns.get? name :=
  Namespace.get?_defineFunction ns (f.testFunction module).origin name

theorem size_claimed (ns : Namespace Unit) :
    (claimed module ns f).size = if ns.contains f.name then ns.size else ns.size + 1 :=
  NameMap.size_insert ns.bindings f.name _

end Suite

variable [Cell V] {module : String} {ns next final : Namespace Unit} {f : FunctionEntry V}
  {e : Expansion Unit}

/-! ## A function by itself -/

namespace FunctionEntry

/-- What a function expands to by itself. -/
def expand (f : FunctionEntry V) (module : String) : Report (Expansion Unit) :=
  f.table.expand (f.testFunction module)

theorem outcome_expand_eq_ok_iff :
    (f.expand module).outcome = .ok e ↔
      Expandable f.policy f.parameters f.dataSets f.name ∧
        e = (f.testFunction module).expansion f.parameters f.dataSets :=
  outcome_expandWith_eq_ok_iff

theorem separate_of_expand (h : (f.expand module).outcome = .ok e) : e.Separate :=
  separate_of_outcome h

theorem names_of_expand (h : (f.expand module).outcome = .ok e) : e.names = f.generatedNames := by
  obtain ⟨_, rfl⟩ := outcome_expand_eq_ok_iff.mp h
  exact TestFunction.names_expansion _ _ _

theorem size_of_expand (h : (f.expand module).outcome = .ok e) : e.size = f.dataSets.size := by
  obtain ⟨_, rfl⟩ := outcome_expand_eq_ok_iff.mp h
  exact List.length_map _

theorem origin_name_of_expand (h : (f.expand module).outcome = .ok e) : e.origin.name = f.name := by
  obtain ⟨_, rfl⟩ := outcome_expand_eq_ok_iff.mp h
  rfl

/-- Every data set has its test. -/
theorem exists_test_of_expand (h : (f.expand module).outcome = .ok e) {dataSet : String}
    (hdataSet : dataSet ∈ f.dataSets.names) :
    ∃ t ∈ e.tests, t.name = generatedName f.name dataSet ∧ t.origin.name = f.name ∧
      t.dataSet = some dataSet := by
  obtain ⟨_, rfl⟩ := outcome_expand_eq_ok_iff.mp h
  obtain ⟨set, hset, rfl⟩ := List.mem_map.mp hdataSet
  exact ⟨_, List.mem_map.mpr ⟨set, hset, rfl⟩, rfl, rfl, rfl⟩

end FunctionEntry

/-! ## Adding a function -/

namespace Suite

/-- The namespace after adding a function that expands to `e`. -/
def added (module : String) (ns : Namespace Unit) (f : FunctionEntry V) (e : Expansion Unit) :
    Namespace Unit :=
  (claimed module ns f).injected e

/-- Taking its name over, a function takes none of the names that it generates. -/
theorem get?_claimed_of_mem (h : (f.expand module).outcome = .ok e) {t : TestCase Unit}
    (ht : t ∈ e.tests) (ns : Namespace Unit) :
    (claimed module ns f).get? t.name = ns.get? t.name := by
  have hne : t.name ≠ f.name := by
    intro heq
    have hnot := (FunctionEntry.separate_of_expand h).origin_notMem
    rw [FunctionEntry.origin_name_of_expand h] at hnot
    exact hnot (Expansion.mem_names_iff.mpr ⟨t, ht, heq⟩)
  rw [get?_claimed, if_neg hne]

/-- **When a function can be added**: it expands by itself, and no name that it generates is
taken. Its own name may be taken. -/
theorem outcome_addFunction_eq_ok_iff :
    (addFunction module ns f).outcome = .ok next ↔
      ∃ e, (f.expand module).outcome = .ok e ∧ (∀ t ∈ e.tests, ns.get? t.name = none) ∧
        next = added module ns f e := by
  have hadd : (addFunction module ns f).outcome = .ok next ↔ ∃ names e,
      (f.expand module).outcome = .ok e ∧ (claimed module ns f).inject e = (.ok names, next) := by
    simp only [addFunction, Report.outcome_bind_eq_ok_iff, Report.outcome_pure, Except.ok.injEq,
      CaseTable.decorate_accepted_iff]
    rfl
  rw [hadd]
  constructor
  · rintro ⟨names, e, hexpand, hinject⟩
    obtain ⟨hfree, -, rfl⟩ := Namespace.inject_eq_ok_iff.mp hinject
    refine ⟨e, hexpand, ?_, rfl⟩
    intro t ht
    rw [← get?_claimed_of_mem hexpand ht]
    exact hfree t ht
  · rintro ⟨e, hexpand, hfree, rfl⟩
    refine ⟨e.names, e, hexpand, Namespace.inject_of_free ?_⟩
    intro t ht
    rw [get?_claimed_of_mem hexpand ht]
    exact hfree t ht

/-- **Looking up after a function is added.** Its tests are there, its name is free, and nothing
else has changed. -/
theorem get?_added (h : (f.expand module).outcome = .ok e) (ns : Namespace Unit) (name : String) :
    (added module ns f e).get? name =
      match e.get? name with
      | some t => some (.test t)
      | none => if name = f.name then none else ns.get? name := by
  rw [added, Namespace.get?_injected (FunctionEntry.separate_of_expand h),
    FunctionEntry.origin_name_of_expand h, get?_claimed]
  simp only [isBare_claimed, and_true]
  cases e.get? name with
  | some t => rfl
  | none =>
    by_cases hname : name = f.name
    · simp only [hname, if_true]
    · simp only [hname, if_false]

/-- **Counting after a function is added.** A name that is taken over from something is one entry
less. -/
theorem size_added (h : (f.expand module).outcome = .ok e)
    (hfree : ∀ t ∈ e.tests, ns.get? t.name = none) :
    (added module ns f e).size + (if ns.contains f.name then 1 else 0) =
      ns.size + f.dataSets.size := by
  have hclaimed : ∀ t ∈ e.tests, (claimed module ns f).get? t.name = none := by
    intro t ht
    rw [get?_claimed_of_mem h ht]
    exact hfree t ht
  have hinject := Namespace.size_injected (FunctionEntry.separate_of_expand h) hclaimed
  -- the bare function goes again, so what is left to count is whether its name was taken
  rw [FunctionEntry.origin_name_of_expand h, if_pos (isBare_claimed ns), size_claimed,
    FunctionEntry.size_of_expand h, ← added] at hinject
  by_cases htaken : ns.contains f.name = true
  · rw [if_pos htaken] at hinject ⊢
    omega
  · rw [if_neg htaken] at hinject ⊢
    omega

/-- Where the name of the function was free, the names that are free afterwards are those that were
free before and that it does not generate. -/
theorem get?_added_eq_none_iff (h : (f.expand module).outcome = .ok e)
    (hown : ns.get? f.name = none) {name : String} :
    (added module ns f e).get? name = none ↔ ns.get? name = none ∧ name ∉ f.generatedNames := by
  rw [get?_added h, ← FunctionEntry.names_of_expand h]
  cases hget : e.get? name with
  | some t =>
    obtain ⟨hmem, rfl⟩ := Expansion.of_get? hget
    simp [Expansion.mem_names_iff.mpr ⟨t, hmem, rfl⟩]
  | none =>
    simp only [Expansion.get?_eq_none_iff.mp hget, not_false_eq_true, and_true]
    by_cases hname : name = f.name
    · simp only [hname, hown, if_true]
    · simp only [hname, if_false]

/-! ## Adding functions one after the other -/

variable {functions rest : List (FunctionEntry V)}

theorem outcome_addFunctions_cons_eq_ok_iff :
    (addFunctions module ns (f :: rest)).outcome = .ok final ↔
      ∃ next, (addFunction module ns f).outcome = .ok next ∧
        (addFunctions module next rest).outcome = .ok final :=
  Report.outcome_bind_eq_ok_iff

/-- There are never more tests than data sets. -/
theorem size_addFunctions_le (h : (addFunctions module ns functions).outcome = .ok final) :
    final.size ≤ ns.size + countDataSets functions := by
  induction functions generalizing ns with
  | nil =>
    obtain rfl := Except.ok.inj h
    exact Nat.le_add_right _ _
  | cons f rest ih =>
    obtain ⟨next, hadd, hrest⟩ := outcome_addFunctions_cons_eq_ok_iff.mp h
    obtain ⟨e, hexpand, hfree, rfl⟩ := outcome_addFunction_eq_ok_iff.mp hadd
    have hsize := size_added hexpand hfree
    have hle := ih hrest
    rw [countDataSets]
    omega

/-- **There are as many tests as data sets just if no name is taken over from anything.** Each
function that takes its name over costs one test, and no later one makes up for it. -/
theorem size_addFunctions_eq_iff (h : (addFunctions module ns functions).outcome = .ok final) :
    final.size = ns.size + countDataSets functions ↔
      (∀ f ∈ functions, ns.get? f.name = none) ∧ UnshadowedFunctions functions := by
  induction functions generalizing ns with
  | nil =>
    obtain rfl := Except.ok.inj h
    simp [countDataSets, UnshadowedFunctions]
  | cons f rest ih =>
    obtain ⟨next, hadd, hrest⟩ := outcome_addFunctions_cons_eq_ok_iff.mp h
    obtain ⟨e, hexpand, hfree, rfl⟩ := outcome_addFunction_eq_ok_iff.mp hadd
    have hsize := size_added hexpand hfree
    have hle := size_addFunctions_le hrest
    have hfirst : final.size = ns.size + countDataSets (f :: rest) ↔
        ns.get? f.name = none ∧
          final.size = (added module ns f e).size + countDataSets rest := by
      rw [countDataSets, ← Namespace.contains_eq_false_iff]
      cases htaken : ns.contains f.name with
      | true =>
        simp only [htaken, if_true] at hsize
        simp only [reduceCtorEq, false_and, iff_false]
        omega
      | false =>
        simp only [htaken, Bool.false_eq_true, if_false] at hsize
        simp only [true_and]
        omega
    rw [hfirst, ih hrest, unshadowedFunctions_cons_iff, List.forall_mem_cons, and_assoc]
    refine and_congr_right fun hown => ?_
    -- a name of a later function is free after this one just if it was free before and this one
    -- does not generate it
    simp only [get?_added_eq_none_iff hexpand hown]
    exact ⟨fun ⟨hnext, hlater⟩ => ⟨fun g hg => (hnext g hg).1, fun g hg => (hnext g hg).2, hlater⟩,
      fun ⟨hbefore, hclear, hlater⟩ => ⟨fun g hg => ⟨hbefore g hg, hclear g hg⟩, hlater⟩⟩

/-- A test stays bound while no function of its name is added. -/
theorem get?_addFunctions_of_test (h : (addFunctions module ns functions).outcome = .ok final)
    {name : String} {t : TestCase Unit} (hbound : ns.get? name = some (.test t))
    (hclear : ∀ f ∈ functions, f.name ≠ name) : final.get? name = some (.test t) := by
  induction functions generalizing ns with
  | nil =>
    obtain rfl := Except.ok.inj h
    exact hbound
  | cons f rest ih =>
    obtain ⟨next, hadd, hrest⟩ := outcome_addFunctions_cons_eq_ok_iff.mp h
    obtain ⟨e, hexpand, hfree, rfl⟩ := outcome_addFunction_eq_ok_iff.mp hadd
    obtain ⟨hname, hnames⟩ := List.forall_mem_cons.mp hclear
    refine ih hrest ?_ hnames
    rw [get?_added hexpand]
    cases hget : e.get? name with
    | some u =>
      -- a test of this name would have been refused
      obtain ⟨hmem, rfl⟩ := Expansion.of_get? hget
      rw [hfree u hmem] at hbound
      cases hbound
    | none =>
      rw [if_neg (Ne.symm hname)]
      exact hbound

/-- Where nothing is shadowed, every test of every function is bound in the end. -/
theorem get?_addFunctions_of_unshadowed
    (h : (addFunctions module ns functions).outcome = .ok final)
    (hclear : UnshadowedFunctions functions) (f : FunctionEntry V) (hf : f ∈ functions) :
    ∃ e, (f.expand module).outcome = .ok e ∧ ∀ t ∈ e.tests, final.get? t.name = some (.test t) := by
  induction functions generalizing ns with
  | nil => cases hf
  | cons first rest ih =>
    obtain ⟨next, hadd, hrest⟩ := outcome_addFunctions_cons_eq_ok_iff.mp h
    obtain ⟨hfirst, hlater⟩ := unshadowedFunctions_cons_iff.mp hclear
    rcases List.mem_cons.mp hf with rfl | hf
    · obtain ⟨e, hexpand, _, rfl⟩ := outcome_addFunction_eq_ok_iff.mp hadd
      refine ⟨e, hexpand, fun t ht => get?_addFunctions_of_test hrest ?_ ?_⟩
      · have hnodup := (FunctionEntry.separate_of_expand hexpand).names_nodup
        rw [get?_added hexpand, Expansion.get?_of_mem hnodup ht]
      · intro g hg heq
        refine hfirst g hg ?_
        rw [heq, ← FunctionEntry.names_of_expand hexpand]
        exact Expansion.mem_names_iff.mpr ⟨t, ht, rfl⟩
    · exact ih hrest hlater hf

/-! ## Building -/

/-- **A namespace in which no test of the suite is missing.** Each data set of each function has
the test that the function expands to by itself, and there are as many tests as data sets. -/
structure Complete (s : Suite V) (ns : Namespace Unit) : Prop where
  bound : ∀ f ∈ s.functions, ∀ dataSet ∈ f.dataSets.names,
    ∃ e, (f.expand s.module).outcome = .ok e ∧ ∃ t ∈ e.tests,
      ns.get? (generatedName f.name dataSet) = some (.test t) ∧
      t.origin.name = f.name ∧ t.dataSet = some dataSet
  size : ns.size = countDataSets s.functions

/-- **What a suite builds is complete exactly when the suite is unshadowed.** -/
theorem complete_iff_unshadowed {s : Suite V} {ns : Namespace Unit}
    (h : s.build.outcome = .ok ns) : s.Complete ns ↔ s.Unshadowed := by
  have hsize := size_addFunctions_eq_iff h
  have hempty : (Namespace.empty s.module : Namespace Unit).size = 0 := rfl
  simp only [hempty, Nat.zero_add, Namespace.get?_empty, implies_true, true_and] at hsize
  constructor
  · exact fun hcomplete => hsize.mp hcomplete.size
  · intro hclear
    refine ⟨fun f hf dataSet hdataSet => ?_, hsize.mpr hclear⟩
    obtain ⟨e, hexpand, hbound⟩ := get?_addFunctions_of_unshadowed h hclear f hf
    obtain ⟨t, ht, hname, horigin, hset⟩ := FunctionEntry.exists_test_of_expand hexpand hdataSet
    exact ⟨e, hexpand, t, ht, hname ▸ hbound t ht, horigin, hset⟩

/-- Two functions, the second named like the test that the first generates. -/
def shadowed : Suite Int64 where
  module := "m"
  functions :=
    [⟨"test_a", none, ["x"], ⟨[("b", .positional [1])]⟩, false⟩,
      ⟨"test_a_b", none, ["x"], ⟨[("c", .positional [2])]⟩, false⟩]

/-- **A test is lost in silence**: the suite builds, and only one of its two tests is there. -/
theorem shadowed_not_complete :
    ∃ ns, shadowed.build.outcome = .ok ns ∧ ns.names = ["test_a_b_c"] ∧ ¬ shadowed.Complete ns := by
  refine ⟨_, rfl, rfl, fun h => ?_⟩
  have hsize := h.size
  cases hsize

/-- The same two functions in the other order. -/
def unshadowed : Suite Int64 := { shadowed with functions := shadowed.functions.reverse }

theorem unshadowed_complete :
    ∃ ns, unshadowed.build.outcome = .ok ns ∧ ns.names = ["test_a_b", "test_a_b_c"] ∧
      unshadowed.Complete ns :=
  ⟨_, rfl, rfl, (complete_iff_unshadowed rfl).mpr (by decide)⟩

end Suite

end Casewise
