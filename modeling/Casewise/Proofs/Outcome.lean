import Mathlib.Data.List.Induction
import Mathlib.Data.List.Perm.Basic
import Casewise.Proofs.Building

/-!
# Casewise.Proofs.Outcome -- which suites build, what stops the others, and why no order matters

Where no function is named like a test that an earlier one generates, a build can be told from the
functions by themselves. `Stopped earlier f p` says that `f` ends the build with the problem `p`
when the functions `earlier` stand before it: either `f` does not expand, and `p` is the problem of
its own expansion, or it expands, and `p` reports the first of its generated names that is among
theirs. A list of functions passes when none of them is stopped by those before it.

The induction runs along the list from its end, because what stops a function depends on what
stands before it. The invariant is `Holds`: after the functions of a list, a namespace binds the
tests of these functions and nothing else, so a name is taken just if one of them generates it. A
function that takes its own name over takes it from nobody, and gives it back.

`Holds` does not see in which order functions and data sets stand. This is why two suites that
differ in nothing but order build alike, if no function of theirs is named like any generated test.
-/

namespace Casewise

open Identifier

variable {V : Type}

/-! ## Tests and names of functions -/

/-- The tests that a function expands to, whether or not anything is wrong with them. -/
def FunctionEntry.tests [Cell V] (f : FunctionEntry V) (module : String) : List (TestCase Unit) :=
  ((f.testFunction module).expansion f.parameters f.dataSets).tests

namespace FunctionEntry

variable [Cell V] {f : FunctionEntry V} {module : String}

theorem tests_of_expand {e : Expansion Unit} (h : (f.expand module).outcome = .ok e) :
    e.tests = f.tests module := by
  obtain ⟨_, rfl⟩ := outcome_expand_eq_ok_iff.mp h
  rfl

theorem mem_generatedNames_iff {name : String} :
    name ∈ f.generatedNames ↔ ∃ t ∈ f.tests module, t.name = name := by
  have hnames : (f.tests module).map TestCase.name = f.generatedNames :=
    TestFunction.names_expansion _ _ _
  rw [← hnames, List.mem_map]

end FunctionEntry

namespace Suite

/-- The names that functions generate, in order. -/
def generatedNames (functions : List (FunctionEntry V)) : List String :=
  functions.flatMap FunctionEntry.generatedNames

theorem mem_generatedNames_iff {functions : List (FunctionEntry V)} {name : String} :
    name ∈ generatedNames functions ↔ ∃ f ∈ functions, name ∈ f.generatedNames :=
  List.mem_flatMap

theorem generatedNames_append (before after : List (FunctionEntry V)) :
    generatedNames (before ++ after) = generatedNames before ++ generatedNames after :=
  List.flatMap_append

theorem generatedNames_singleton (f : FunctionEntry V) : generatedNames [f] = f.generatedNames :=
  List.flatMap_singleton _ _

/-- In an unshadowed list a function is named like no test of those before it. -/
theorem UnshadowedFunctions.split {before after : List (FunctionEntry V)} {f : FunctionEntry V}
    (h : UnshadowedFunctions (before ++ f :: after)) :
    UnshadowedFunctions before ∧ f.name ∉ generatedNames before := by
  obtain ⟨hbefore, _, hcross⟩ := List.pairwise_append.mp h
  refine ⟨hbefore, ?_⟩
  intro hmem
  obtain ⟨g, hg, hname⟩ := mem_generatedNames_iff.mp hmem
  exact hcross g hg f List.mem_cons_self hname

/-! ## What stops a build -/

variable [Cell V] {module : String} {functions : List (FunctionEntry V)} {f : FunctionEntry V}

/-- **Why a function stops a build** behind the functions `earlier`: it does not expand, or it
expands and generates a name that one of them generates too, the first such name being reported
for its data set. -/
inductive Stopped (module : String) (earlier : List (FunctionEntry V)) (f : FunctionEntry V) :
    Problem → Prop where
  | expansion {p : Problem} (failed : (f.expand module).outcome = .error p) :
    Stopped module earlier f p
  | collision {e : Expansion Unit} {before after : List String} {dataSet : String}
    (expanded : (f.expand module).outcome = .ok e)
    (split : f.dataSets.names = before ++ dataSet :: after)
    (fresh : ∀ d ∈ before, generatedName f.name d ∉ generatedNames earlier)
    (taken : generatedName f.name dataSet ∈ generatedNames earlier) :
    Stopped module earlier f (.duplicateName (generatedName f.name dataSet) (some dataSet))

/-- **No function of a list is stopped** by those before it. -/
def Passes (module : String) (functions : List (FunctionEntry V)) : Prop :=
  ∀ before f after, functions = before ++ f :: after → ∀ p, ¬ Stopped module before f p

theorem passes_nil : Passes (V := V) module [] := by
  intro before f after hsplit
  simp at hsplit

theorem passes_snoc_iff :
    Passes module (functions ++ [f]) ↔
      Passes module functions ∧ ∀ p, ¬ Stopped module functions f p := by
  constructor
  · intro h
    refine ⟨?_, h functions f [] rfl⟩
    intro before g after hsplit
    refine h before g (after ++ [f]) ?_
    rw [hsplit, List.append_assoc, List.cons_append]
  · rintro ⟨hbefore, hlast⟩ before g after hsplit
    -- the function stands among the first ones or it is the last
    rcases List.eq_nil_or_concat after with rfl | ⟨middle, last, rfl⟩
    · obtain ⟨rfl, hcons⟩ := List.append_inj' hsplit rfl
      obtain rfl := (List.cons.inj hcons).1
      exact hlast
    · refine hbefore before g middle ?_
      have hassoc : functions ++ [f] = (before ++ g :: middle) ++ [last] := by
        rw [hsplit, List.append_assoc, List.cons_append, List.concat_eq_append]
      exact (List.append_inj' hassoc rfl).1

/-- What is not stopped expands, and generates nothing that is generated before. -/
theorem not_stopped_iff :
    (∀ p, ¬ Stopped module functions f p) ↔
      (∃ e, (f.expand module).outcome = .ok e) ∧
        ∀ name ∈ f.generatedNames, name ∉ generatedNames functions := by
  constructor
  · intro h
    cases hexpand : (f.expand module).outcome with
    | error p => exact absurd (.expansion hexpand) (h p)
    | ok e =>
      refine ⟨⟨e, rfl⟩, ?_⟩
      intro name hname htaken
      obtain ⟨dataSet, hdataSet, rfl⟩ := List.mem_map.mp hname
      -- some data set has a taken name, so there is a first one
      have hfind : (f.dataSets.names.find? fun d =>
          decide (generatedName f.name d ∈ generatedNames functions)).isSome := by
        rw [List.find?_isSome]
        exact ⟨dataSet, hdataSet, decide_eq_true htaken⟩
      obtain ⟨first, hfirst⟩ := Option.isSome_iff_exists.mp hfind
      obtain ⟨hbad, before, after, hsplit, hfresh⟩ := List.find?_eq_some_iff_append.mp hfirst
      refine h _ (.collision hexpand hsplit ?_ (of_decide_eq_true hbad))
      intro d hd
      simpa using hfresh d hd
  · rintro ⟨⟨e, hexpand⟩, hfresh⟩ p hstopped
    cases hstopped with
    | expansion hfailed =>
      rw [hexpand] at hfailed
      cases hfailed
    | @collision _ before after dataSet _ hsplit _ htaken =>
      have hmem : dataSet ∈ f.dataSets.names := by
        rw [hsplit]
        exact List.mem_append_right _ List.mem_cons_self
      exact hfresh _ (List.mem_map_of_mem hmem) htaken

/-- **Functions pass just if each of them expands and all generated names differ.** -/
theorem passes_iff :
    Passes module functions ↔
      (∀ f ∈ functions, ∃ e, (f.expand module).outcome = .ok e) ∧
        (generatedNames functions).Nodup := by
  induction functions using List.reverseRecOn with
  | nil => simp [passes_nil, generatedNames]
  | append_singleton functions f ih =>
    have hown : (∃ e, (f.expand module).outcome = .ok e) → f.generatedNames.Nodup := by
      rintro ⟨e, hexpand⟩
      rw [← FunctionEntry.names_of_expand hexpand]
      exact (FunctionEntry.separate_of_expand hexpand).names_nodup
    rw [passes_snoc_iff, ih, not_stopped_iff, generatedNames_append, generatedNames_singleton,
      List.nodup_append']
    constructor
    · rintro ⟨⟨hexpands, hnodup⟩, hexpand, hfresh⟩
      refine ⟨?_, hnodup, hown hexpand, ?_⟩
      · intro g hg
        rcases List.mem_append.mp hg with hg | hg
        · exact hexpands g hg
        · rw [List.mem_singleton.mp hg]
          exact hexpand
      · intro name hbefore hname
        exact hfresh name hname hbefore
    · rintro ⟨hexpands, hnodup, _, hdisjoint⟩
      refine ⟨⟨?_, hnodup⟩, hexpands f (List.mem_append_right _ (List.mem_singleton.mpr rfl)), ?_⟩
      · intro g hg
        exact hexpands g (List.mem_append_left _ hg)
      · intro name hname hbefore
        exact hdisjoint hbefore hname

/-- What does not pass is stopped at a first function. -/
theorem passes_or_stopped (module : String) (functions : List (FunctionEntry V)) :
    Passes module functions ∨
      ∃ p before f after, functions = before ++ f :: after ∧ Passes module before ∧
        Stopped module before f p := by
  induction functions using List.reverseRecOn with
  | nil => exact .inl passes_nil
  | append_singleton functions f ih =>
    rcases ih with hpasses | ⟨p, before, g, after, rfl, hpasses, hstopped⟩
    · by_cases hlast : ∀ p, ¬ Stopped module functions f p
      · exact .inl (passes_snoc_iff.mpr ⟨hpasses, hlast⟩)
      · obtain ⟨p, hstopped⟩ := not_forall_not.mp hlast
        exact .inr ⟨p, functions, f, [], rfl, hpasses, hstopped⟩
    · refine .inr ⟨p, before, g, after ++ [f], ?_, hpasses, hstopped⟩
      rw [List.append_assoc, List.cons_append]

/-! ## What a namespace holds on the way -/

variable {ns mid : Namespace Unit} {p : Problem}

/-- **What a namespace holds after functions have been added**: their tests and nothing else. -/
def Holds (module : String) (functions : List (FunctionEntry V)) (ns : Namespace Unit) : Prop :=
  ∀ name binding, ns.get? name = some binding ↔
    ∃ f ∈ functions, ∃ t ∈ f.tests module, t.name = name ∧ binding = .test t

theorem holds_empty : Holds (V := V) module [] (.empty module) := by
  intro name binding
  rw [Namespace.get?_empty]
  simp

/-- The names that are taken are those that have been generated. -/
theorem Holds.get?_eq_none_iff (h : Holds module functions ns) {name : String} :
    ns.get? name = none ↔ name ∉ generatedNames functions := by
  rw [Option.eq_none_iff_forall_ne_some, mem_generatedNames_iff]
  constructor
  · rintro hnone ⟨f, hf, hname⟩
    obtain ⟨t, ht, hname⟩ : ∃ t ∈ f.tests module, t.name = name :=
      FunctionEntry.mem_generatedNames_iff.mp hname
    exact hnone _ ((h name _).mpr ⟨f, hf, t, ht, hname, rfl⟩)
  · intro hfree binding hbinding
    obtain ⟨f, hf, t, ht, hname, _⟩ := (h name binding).mp hbinding
    exact hfree ⟨f, hf, FunctionEntry.mem_generatedNames_iff.mpr ⟨t, ht, hname⟩⟩

/-- One function more: its tests come on top of the others, whose names are none of its own. -/
theorem Holds.added (h : Holds module functions ns) {e : Expansion Unit}
    (hexpand : (f.expand module).outcome = .ok e) (hown : f.name ∉ generatedNames functions)
    (hfree : ∀ t ∈ e.tests, ns.get? t.name = none) :
    Holds module (functions ++ [f]) (added module ns f e) := by
  intro name binding
  have hlast : (∃ g ∈ functions ++ [f], ∃ t ∈ g.tests module, t.name = name ∧ binding = .test t) ↔
      ns.get? name = some binding ∨ ∃ t ∈ e.tests, t.name = name ∧ binding = .test t := by
    rw [h name binding, FunctionEntry.tests_of_expand hexpand]
    constructor
    · rintro ⟨g, hg, hbound⟩
      rcases List.mem_append.mp hg with hg | hg
      · exact .inl ⟨g, hg, hbound⟩
      · rw [List.mem_singleton.mp hg] at hbound
        exact .inr hbound
    · rintro (⟨g, hg, hbound⟩ | hbound)
      · exact ⟨g, List.mem_append_left _ hg, hbound⟩
      · exact ⟨f, List.mem_append_right _ (List.mem_singleton.mpr rfl), hbound⟩
  rw [hlast, get?_added hexpand]
  cases hget : e.get? name with
  | some t =>
    obtain ⟨hmem, rfl⟩ := Expansion.of_get? hget
    have hnodup := (FunctionEntry.separate_of_expand hexpand).names_nodup
    rw [hfree t hmem]
    constructor
    · intro hbinding
      exact .inr ⟨t, hmem, rfl, (Option.some.inj hbinding).symm⟩
    · rintro (hnone | ⟨u, hu, hname, rfl⟩)
      · cases hnone
      · rw [List.inj_on_of_nodup_map hnodup hu hmem hname]
  | none =>
    have hnot : ¬ ∃ t ∈ e.tests, t.name = name ∧ binding = .test t := by
      rintro ⟨t, ht, hname, _⟩
      exact Expansion.get?_eq_none_iff.mp hget (Expansion.mem_names_iff.mpr ⟨t, ht, hname⟩)
    -- the name of the function itself was free before and is free again
    by_cases hname : name = f.name
    · subst hname
      simp [hnot, h.get?_eq_none_iff.mpr hown]
    · simp [hnot, hname]

/-! ## The outcome of a build -/

theorem outcome_addFunction_of_error (h : (f.expand module).outcome = .error p)
    (ns : Namespace Unit) : (addFunction module ns f).outcome = .error p := by
  refine Report.outcome_bind_of_error ?_ _
  have hdecorate := CaseTable.decorate_of_error h (claimed module ns f)
  exact congrArg (fun decorated => decorated.1.outcome) hdecorate

theorem outcome_addFunction_of_taken {e : Expansion Unit}
    (h : (f.expand module).outcome = .ok e)
    (htaken : ((claimed module ns f).inject e).1 = .error p) :
    (addFunction module ns f).outcome = .error p := by
  refine Report.outcome_bind_of_error ?_ _
  have hdecorate := CaseTable.decorate_of_ok h (claimed module ns f)
  rw [← htaken]
  exact congrArg (fun decorated => decorated.1.outcome) hdecorate

/-- A function that is stopped fails with the problem that stops it. -/
theorem outcome_addFunction_of_stopped (hholds : Holds module functions ns)
    (h : Stopped module functions f p) : (addFunction module ns f).outcome = .error p := by
  cases h with
  | expansion hfailed => exact outcome_addFunction_of_error hfailed ns
  | @collision e before after dataSet hexpand hsplit hfresh htaken =>
    refine outcome_addFunction_of_taken hexpand ?_
    -- the data sets of the function and the tests of its expansion are split at the same place
    obtain ⟨first, others, hentries, rfl, hcons⟩ := List.map_eq_append_iff.mp hsplit
    obtain ⟨set, last, rfl, rfl, rfl⟩ := List.map_eq_cons_iff.mp hcons
    have htests : e.tests = first.map ((f.testFunction module).testOf f.parameters) ++
        (f.testFunction module).testOf f.parameters set ::
          last.map ((f.testFunction module).testOf f.parameters) := by
      rw [FunctionEntry.tests_of_expand hexpand]
      show f.dataSets.entries.map _ = _
      rw [hentries, List.map_append, List.map_cons]
    have hclaimed : ∀ t ∈ e.tests,
        (claimed module ns f).get? t.name = none ↔ t.name ∉ generatedNames functions := by
      intro t ht
      rw [get?_claimed_of_mem hexpand ht, hholds.get?_eq_none_iff]
    refine congrArg Prod.fst (Namespace.inject_of_taken htests ?_ ?_)
    · intro u hu
      have hmem : u ∈ e.tests := by
        rw [htests]
        exact List.mem_append_left _ hu
      rw [hclaimed u hmem]
      obtain ⟨earlier, hearlier, rfl⟩ := List.mem_map.mp hu
      exact hfresh earlier.1 (List.mem_map_of_mem hearlier)
    · rw [ne_eq, hclaimed _ (htests ▸ List.mem_append_right _ List.mem_cons_self), not_not]
      exact htaken

theorem outcome_addFunctions_append {before after : List (FunctionEntry V)}
    (h : (addFunctions module ns before).outcome = .ok mid) :
    (addFunctions module ns (before ++ after)).outcome =
      (addFunctions module mid after).outcome := by
  induction before generalizing ns with
  | nil =>
    obtain rfl := Except.ok.inj h
    rfl
  | cons g before ih =>
    obtain ⟨next, hadd, hrest⟩ := outcome_addFunctions_cons_eq_ok_iff.mp h
    rw [← ih hrest]
    exact Report.outcome_bind_of_ok hadd _

/-- **Functions that pass are added, and their tests are all that is there then.** -/
theorem Passes.exists_holds (h : Passes module functions)
    (hclear : UnshadowedFunctions functions) :
    ∃ ns, (addFunctions module (.empty module) functions).outcome = .ok ns ∧
      Holds module functions ns := by
  induction functions using List.reverseRecOn with
  | nil => exact ⟨_, rfl, holds_empty⟩
  | append_singleton functions f ih =>
    obtain ⟨hpasses, hlast⟩ := passes_snoc_iff.mp h
    obtain ⟨hbefore, hown⟩ := UnshadowedFunctions.split hclear
    obtain ⟨ns, hbuilt, hholds⟩ := ih hpasses hbefore
    obtain ⟨⟨e, hexpand⟩, hfresh⟩ := not_stopped_iff.mp hlast
    have hfree : ∀ t ∈ e.tests, ns.get? t.name = none := by
      intro t ht
      rw [hholds.get?_eq_none_iff]
      refine hfresh t.name ?_
      rw [FunctionEntry.tests_of_expand hexpand] at ht
      exact FunctionEntry.mem_generatedNames_iff.mpr ⟨t, ht, rfl⟩
    refine ⟨added module ns f e, ?_, hholds.added hexpand hown hfree⟩
    rw [outcome_addFunctions_append hbuilt, outcome_addFunctions_cons_eq_ok_iff]
    exact ⟨_, outcome_addFunction_eq_ok_iff.mpr ⟨e, hexpand, hfree, rfl⟩, rfl⟩

/-- **Functions that do not pass fail with the problem of the first one that is stopped.** -/
theorem outcome_addFunctions_of_stopped {before after : List (FunctionEntry V)}
    (hclear : UnshadowedFunctions (before ++ f :: after)) (hpasses : Passes module before)
    (hstopped : Stopped module before f p) :
    (addFunctions module (.empty module) (before ++ f :: after)).outcome = .error p := by
  obtain ⟨ns, hbuilt, hholds⟩ := hpasses.exists_holds (UnshadowedFunctions.split hclear).1
  rw [outcome_addFunctions_append hbuilt]
  exact Report.outcome_bind_of_error (outcome_addFunction_of_stopped hholds hstopped) _

variable {s t : Suite V}

/-- An unshadowed suite builds just if its functions pass. -/
theorem exists_outcome_build_iff (h : s.Unshadowed) :
    (∃ ns, s.build.outcome = .ok ns) ↔ Passes s.module s.functions := by
  constructor
  · rintro ⟨ns, hbuilt⟩
    rcases passes_or_stopped s.module s.functions with hpasses | hstops
    · exact hpasses
    · obtain ⟨p, before, f, after, hsplit, hpasses, hstopped⟩ := hstops
      rw [Unshadowed, hsplit] at h
      have hfailed := outcome_addFunctions_of_stopped h hpasses hstopped
      rw [build, hsplit, hfailed] at hbuilt
      cases hbuilt
  · intro hpasses
    obtain ⟨ns, hbuilt, _⟩ := hpasses.exists_holds h
    exact ⟨ns, hbuilt⟩

theorem holds_of_build (h : s.Unshadowed) (hbuilt : s.build.outcome = .ok ns) :
    Holds s.module s.functions ns := by
  have hpasses := (exists_outcome_build_iff h).mp ⟨ns, hbuilt⟩
  obtain ⟨built, hbuilt', hholds⟩ := hpasses.exists_holds h
  rw [build, hbuilt'] at hbuilt
  rw [← Except.ok.inj hbuilt]
  exact hholds

theorem outcome_build_eq_error_iff (h : s.Unshadowed) :
    s.build.outcome = .error p ↔
      ∃ before f after, s.functions = before ++ f :: after ∧ Passes s.module before ∧
        Stopped s.module before f p := by
  constructor
  · intro hfailed
    rcases passes_or_stopped s.module s.functions with hpasses | hstops
    · obtain ⟨ns, hbuilt⟩ := (exists_outcome_build_iff h).mpr hpasses
      rw [hbuilt] at hfailed
      cases hfailed
    · obtain ⟨q, before, f, after, hsplit, hpasses, hstopped⟩ := hstops
      have hclear := h
      rw [Unshadowed, hsplit] at hclear
      have hfailed' := outcome_addFunctions_of_stopped hclear hpasses hstopped
      rw [build, hsplit, hfailed'] at hfailed
      obtain rfl := Except.error.inj hfailed
      exact ⟨before, f, after, hsplit, hpasses, hstopped⟩
  · rintro ⟨before, f, after, hsplit, hpasses, hstopped⟩
    rw [Unshadowed, hsplit] at h
    rw [build, hsplit]
    exact outcome_addFunctions_of_stopped h hpasses hstopped

end Suite

/-! ## Another order -/

/-- **The same function with its data sets in another order.** -/
structure FunctionEntry.Reordered (f g : FunctionEntry V) : Prop where
  name : g.name = f.name
  doc : g.doc = f.doc
  parameters : g.parameters = f.parameters
  lenient : g.lenient = f.lenient
  dataSets : f.dataSets.entries.Perm g.dataSets.entries

namespace FunctionEntry.Reordered

variable {f g : FunctionEntry V}

theorem names_perm (h : f.Reordered g) : f.dataSets.names.Perm g.dataSets.names :=
  h.dataSets.map Prod.fst

theorem generatedNames_perm (h : f.Reordered g) : f.generatedNames.Perm g.generatedNames := by
  rw [generatedNames, generatedNames, h.name]
  exact h.names_perm.map _

theorem testFunction_eq (h : f.Reordered g) (module : String) :
    g.testFunction module = f.testFunction module := by
  rw [testFunction, testFunction, h.name, h.doc]

variable [Cell V]

/-- The tests are the same ones, in another order. -/
theorem mem_tests_iff (h : f.Reordered g) {module : String} {t : TestCase Unit} :
    t ∈ f.tests module ↔ t ∈ g.tests module := by
  rw [tests, tests, h.testFunction_eq module, h.parameters]
  exact (h.dataSets.map _).mem_iff

/-- Whether a function expands does not depend on the order of its data sets: what is asked of
them is asked of each one, or of each two. -/
theorem exists_expansion_iff (h : f.Reordered g) {module : String} :
    (∃ e, (f.expand module).outcome = .ok e) ↔ ∃ e, (g.expand module).outcome = .ok e := by
  have hcondition : Expandable f.policy f.parameters f.dataSets f.name ↔
      Expandable g.policy g.parameters g.dataSets g.name := by
    rw [policy, policy, h.name, h.parameters, h.lenient]
    constructor
    · rintro ⟨hfunction, hparameters, hdistinct, hnames, hnodup, hfit⟩
      exact ⟨hfunction, hparameters, hdistinct,
        fun name hname => hnames name (h.names_perm.mem_iff.mpr hname),
        h.names_perm.nodup_iff.mp hnodup,
        fun set hset => hfit set (h.dataSets.mem_iff.mpr hset)⟩
    · rintro ⟨hfunction, hparameters, hdistinct, hnames, hnodup, hfit⟩
      exact ⟨hfunction, hparameters, hdistinct,
        fun name hname => hnames name (h.names_perm.mem_iff.mp hname),
        h.names_perm.nodup_iff.mpr hnodup,
        fun set hset => hfit set (h.dataSets.mem_iff.mp hset)⟩
  simp only [outcome_expand_eq_ok_iff, exists_and_left, exists_eq, and_true]
  exact hcondition

end FunctionEntry.Reordered

namespace Suite

variable {s t : Suite V}

/-- **The same suite with its functions, and the data sets of each, in another order.** -/
def Reordered (s t : Suite V) : Prop :=
  t.module = s.module ∧
    ∃ middle, List.Forall₂ FunctionEntry.Reordered s.functions middle ∧ middle.Perm t.functions

/-- **No function of the suite is named like any test that the suite generates.** -/
def Apart (s : Suite V) : Prop := ∀ f ∈ s.functions, f.name ∉ generatedNames s.functions

instance (s : Suite V) : Decidable s.Apart :=
  inferInstanceAs (Decidable (∀ f ∈ s.functions, f.name ∉ generatedNames s.functions))

theorem Apart.unshadowed (h : s.Apart) : s.Unshadowed := by
  refine List.pairwise_of_forall_mem_list ?_
  intro earlier hearlier later hlater hname
  exact h later hlater (mem_generatedNames_iff.mpr ⟨earlier, hearlier, hname⟩)

namespace Reordered

/-- A function has its counterpart in the other order. -/
theorem exists_right (h : s.Reordered t) {f : FunctionEntry V} (hf : f ∈ s.functions) :
    ∃ g ∈ t.functions, f.Reordered g := by
  obtain ⟨_, middle, hforall, hperm⟩ := h
  obtain ⟨i, hi, rfl⟩ := List.getElem_of_mem hf
  have hi' : i < middle.length := hforall.length_eq ▸ hi
  exact ⟨middle[i], hperm.mem_iff.mp (List.getElem_mem hi'), hforall.get hi hi'⟩

theorem exists_left (h : s.Reordered t) {g : FunctionEntry V} (hg : g ∈ t.functions) :
    ∃ f ∈ s.functions, f.Reordered g := by
  obtain ⟨_, middle, hforall, hperm⟩ := h
  obtain ⟨i, hi, rfl⟩ := List.getElem_of_mem (hperm.mem_iff.mpr hg)
  have hi' : i < s.functions.length := hforall.length_eq.symm ▸ hi
  exact ⟨s.functions[i], List.getElem_mem hi', hforall.get hi' hi⟩

theorem generatedNames_perm (h : s.Reordered t) :
    (generatedNames s.functions).Perm (generatedNames t.functions) := by
  obtain ⟨_, middle, hforall, hperm⟩ := h
  have hmiddle : (generatedNames s.functions).Perm (generatedNames middle) := by
    generalize s.functions = functions at hforall
    clear hperm
    induction hforall with
    | nil => exact List.Perm.refl _
    | cons hfg _ ih => exact hfg.generatedNames_perm.append ih
  exact hmiddle.trans (hperm.flatMap fun _ _ => List.Perm.refl _)

theorem apart (h : s.Reordered t) (hapart : s.Apart) : t.Apart := by
  intro g hg hname
  obtain ⟨f, hf, hfg⟩ := h.exists_left hg
  rw [hfg.name, ← h.generatedNames_perm.mem_iff] at hname
  exact hapart f hf hname

variable [Cell V]

theorem passes_iff (h : s.Reordered t) :
    Passes s.module s.functions ↔ Passes t.module t.functions := by
  rw [Suite.passes_iff, Suite.passes_iff, h.1, h.generatedNames_perm.nodup_iff]
  refine and_congr_left fun _ => ?_
  constructor
  · intro hexpands g hg
    obtain ⟨f, hf, hfg⟩ := h.exists_left hg
    exact hfg.exists_expansion_iff.mp (hexpands f hf)
  · intro hexpands f hf
    obtain ⟨g, hg, hfg⟩ := h.exists_right hf
    exact hfg.exists_expansion_iff.mpr (hexpands g hg)

/-- What a namespace holds does not show the order. -/
theorem holds (h : s.Reordered t) {ns : Namespace Unit} (hholds : Holds s.module s.functions ns) :
    Holds t.module t.functions ns := by
  intro name binding
  rw [h.1, hholds name binding]
  constructor
  · rintro ⟨f, hf, u, hu, hbound⟩
    obtain ⟨g, hg, hfg⟩ := h.exists_right hf
    exact ⟨g, hg, u, hfg.mem_tests_iff.mp hu, hbound⟩
  · rintro ⟨g, hg, u, hu, hbound⟩
    obtain ⟨f, hf, hfg⟩ := h.exists_left hg
    exact ⟨f, hf, u, hfg.mem_tests_iff.mpr hu, hbound⟩

end Reordered

variable [Cell V]

theorem Holds.get?_eq {module : String} {functions : List (FunctionEntry V)}
    {ns other : Namespace Unit} (h : Holds module functions ns)
    (hother : Holds module functions other) (name : String) : ns.get? name = other.get? name := by
  refine Option.ext fun binding => ?_
  rw [h name binding, hother name binding]

/-- **What an unshadowed suite builds.** It builds just if every function expands by itself and all
generated names differ. Otherwise the problem is that of the first function that is stopped. And
if no function is named like any generated test, then in any other order the suite builds just if
it does in this one, and every name is bound to the same. -/
theorem unshadowed_build (s : Suite V) (h : s.Unshadowed) :
    ((∃ ns, s.build.outcome = .ok ns) ↔
      (∀ f ∈ s.functions, ∃ e, (f.expand s.module).outcome = .ok e) ∧
        (generatedNames s.functions).Nodup) ∧
    (∀ p, s.build.outcome = .error p ↔
      ∃ before f after, s.functions = before ++ f :: after ∧
        (∀ earlier g later, before = earlier ++ g :: later →
          ∀ q, ¬ Stopped s.module earlier g q) ∧
        Stopped s.module before f p) ∧
    (s.Apart → ∀ t : Suite V, s.Reordered t →
      ((∃ ns, s.build.outcome = .ok ns) ↔ ∃ ns, t.build.outcome = .ok ns) ∧
      ∀ ns other, s.build.outcome = .ok ns → t.build.outcome = .ok other →
        ∀ name, ns.get? name = other.get? name) := by
  refine ⟨?_, fun p => outcome_build_eq_error_iff h, ?_⟩
  · rw [exists_outcome_build_iff h, passes_iff]
  · intro hapart t hreordered
    have ht : t.Unshadowed := (hreordered.apart hapart).unshadowed
    refine ⟨?_, ?_⟩
    · rw [exists_outcome_build_iff h, exists_outcome_build_iff ht, hreordered.passes_iff]
    · intro ns other hbuilt hbuilt' name
      exact (hreordered.holds (holds_of_build h hbuilt)).get?_eq (holds_of_build ht hbuilt') name

/-- Two functions whose generated names mix in order. -/
def mixed : Suite Int64 where
  module := "m"
  functions :=
    [⟨"test_a", some "first", ["x"], ⟨[("z", .positional [1]), ("c", .positional [2])]⟩, false⟩,
      ⟨"test_a_d", none, ["x"], ⟨[("e", .positional [3, 4])]⟩, true⟩]

/-- The same functions the other way round, and their data sets too. -/
def mixedBackwards : Suite Int64 where
  module := "m"
  functions :=
    [⟨"test_a_d", none, ["x"], ⟨[("e", .positional [3, 4])]⟩, true⟩,
      ⟨"test_a", some "first", ["x"], ⟨[("c", .positional [2]), ("z", .positional [1])]⟩, false⟩]

theorem mixed_reordered : mixed.Reordered mixedBackwards := by
  refine ⟨rfl, mixedBackwards.functions.reverse, ?_, List.reverse_perm _⟩
  refine .cons ⟨rfl, rfl, rfl, rfl, List.Perm.swap _ _ _⟩ (.cons ?_ .nil)
  exact ⟨rfl, rfl, rfl, rfl, List.Perm.refl _⟩

/-- Two functions that generate the same name from different data sets. -/
def colliding : Suite Int64 where
  module := "m"
  functions :=
    [⟨"test_a", none, ["x"], ⟨[("b_c", .positional [1])]⟩, false⟩,
      ⟨"test_a_b", none, ["x"], ⟨[("d", .positional [2]), ("c", .positional [3])]⟩, false⟩]

theorem mixed_and_colliding_build :
    mixed.Unshadowed ∧ mixed.Apart ∧ mixed.Reordered mixedBackwards ∧
      (∃ ns, mixed.build.outcome = .ok ns) ∧
      (∃ other, mixedBackwards.build.outcome = .ok other) ∧
      (∀ ns other, mixed.build.outcome = .ok ns → mixedBackwards.build.outcome = .ok other →
        ∀ name, ns.get? name = other.get? name) ∧
      colliding.Unshadowed ∧
      colliding.build.outcome = .error (.duplicateName "test_a_b_c" (some "c")) ∧
      ∃ before f after, colliding.functions = before ++ f :: after ∧
        (∀ earlier g later, before = earlier ++ g :: later →
          ∀ q, ¬ Stopped colliding.module earlier g q) ∧
        Stopped colliding.module before f (.duplicateName "test_a_b_c" (some "c")) := by
  have hmixed : mixed.Unshadowed := by decide
  have hcolliding : colliding.Unshadowed := by decide
  obtain ⟨_, _, horder⟩ := unshadowed_build mixed hmixed
  obtain ⟨hbuilds, hsame⟩ := horder (by decide) mixedBackwards mixed_reordered
  obtain ⟨_, hcollides, _⟩ := unshadowed_build colliding hcolliding
  exact ⟨hmixed, by decide, mixed_reordered, ⟨_, rfl⟩, hbuilds.mp ⟨_, rfl⟩, hsame, hcolliding, rfl,
    (hcollides _).mp rfl⟩

end Suite

end Casewise
