import Mathlib.Data.List.Nodup
import Casewise.CaseTable
import Casewise.Proofs.Expansion

/-!
# Casewise.Proofs.Injection -- all tests of an expansion are bound, or none

What each operation does to a namespace is said by what it does to `get?`. Binding the tests of an
expansion is a fold of insertions; because the names of an expansion are distinct
(`Expansion.Separate`), every test can be found under its name afterwards, whatever was inserted
after it (`get?_injected`). Because none of them is the name of the function, the release of the
bare function before the fold and the insertions do not get in each other's way.

An operation that fails has a problem for an answer and leaves the namespace as it was.
`inject_cases` says once what an injection can do, and what is said of decorating follows, which
injects the expansion if there is one. `injection_all_or_none` says of both what they answer and what
they leave behind, for every namespace and every expansion that a function has.
-/

namespace Casewise

open Identifier

variable {V R : Type}

/-! ## The tests of an expansion by name -/

namespace Expansion

theorem mem_names_iff {e : Expansion R} {name : String} :
    name ∈ e.names ↔ ∃ t ∈ e.tests, t.name = name := by
  rw [names, List.mem_map]

theorem get?_eq_none_iff {e : Expansion R} {name : String} :
    e.get? name = none ↔ name ∉ e.names := by
  simp [get?, mem_names_iff]

theorem of_get? {e : Expansion R} {name : String} {t : TestCase R} (h : e.get? name = some t) :
    t ∈ e.tests ∧ t.name = name :=
  ⟨List.mem_of_find?_eq_some h, by simpa using List.find?_some h⟩

/-- Where names are distinct, every test is found under its own. -/
theorem get?_of_mem {e : Expansion R} (hnodup : e.names.Nodup) {t : TestCase R}
    (hmem : t ∈ e.tests) : e.get? t.name = some t := by
  cases h : e.get? t.name with
  | none => exact absurd (mem_names_iff.mpr ⟨t, hmem, rfl⟩) (get?_eq_none_iff.mp h)
  | some u =>
    obtain ⟨hu, hname⟩ := of_get? h
    rw [List.inj_on_of_nodup_map hnodup hu hmem hname]

end Expansion

/-! ## Looking up after an operation -/

namespace Namespace

/-- A name that is bound to a bare function. -/
def IsBare (ns : Namespace R) (name : String) : Prop :=
  ∃ origin, ns.get? name = some (.function origin)

theorem isBare_iff {ns : Namespace R} {name : String} :
    (ns.get? name).any Binding.isFunction = true ↔ ns.IsBare name := by
  unfold IsBare
  cases ns.get? name with
  | none => simp
  | some binding => cases binding <;> simp [Binding.isFunction]

instance (ns : Namespace R) (name : String) : Decidable (ns.IsBare name) :=
  decidable_of_iff _ isBare_iff

theorem contains_eq_false_iff {ns : Namespace R} {name : String} :
    ns.contains name = false ↔ ns.get? name = none := by
  simp [contains, NameMap.contains, get?]

theorem contains_eq_true_iff {ns : Namespace R} {name : String} :
    ns.contains name = true ↔ ns.get? name ≠ none := by
  rw [ne_eq, ← contains_eq_false_iff, Bool.not_eq_false]

@[simp] theorem get?_empty (modulePath name : String) :
    (empty modulePath : Namespace R).get? name = none := rfl

@[simp] theorem get?_defineFunction (ns : Namespace R) (origin : Origin) (name : String) :
    (ns.defineFunction origin).2.get? name =
      if name = origin.name then some (.function origin) else ns.get? name :=
  NameMap.get?_insert ns.bindings origin.name name (.function origin)

@[simp] theorem get?_remove (ns : Namespace R) (removed name : String) :
    (ns.remove removed).2.get? name = if name = removed then none else ns.get? name :=
  NameMap.get?_erase ns.bindings removed name

theorem isBare_defineFunction (ns : Namespace R) (origin : Origin) :
    (ns.defineFunction origin).2.IsBare origin.name := by
  refine ⟨origin, ?_⟩
  rw [get?_defineFunction]
  exact if_pos rfl

/-! ### The release of the bare function -/

theorem dropFunction_of_isBare {ns : Namespace R} {function : String} (h : ns.IsBare function) :
    dropFunction ns.bindings function = ns.bindings.erase function := by
  obtain ⟨origin, horigin⟩ := h
  have hbound : ns.bindings.get? function = some (.function origin) := horigin
  simp only [dropFunction, hbound]

theorem dropFunction_of_not_isBare {ns : Namespace R} {function : String}
    (h : ¬ ns.IsBare function) : dropFunction ns.bindings function = ns.bindings := by
  unfold dropFunction
  split
  · rename_i origin horigin
    exact absurd ⟨origin, horigin⟩ h
  · rfl

theorem get?_dropFunction (ns : Namespace R) (function name : String) :
    (dropFunction ns.bindings function).get? name =
      if name = function ∧ ns.IsBare function then none else ns.get? name := by
  by_cases h : ns.IsBare function
  · rw [dropFunction_of_isBare h, NameMap.get?_erase]
    simp only [h, and_true]
    rfl
  · rw [dropFunction_of_not_isBare h, if_neg fun hand => h hand.2]
    rfl

theorem size_dropFunction (ns : Namespace R) (function : String) :
    (dropFunction ns.bindings function).size + (if ns.IsBare function then 1 else 0) =
      ns.size := by
  by_cases h : ns.IsBare function
  · obtain ⟨origin, horigin⟩ := h
    have hcontains : ns.bindings.contains function = true :=
      NameMap.contains_iff.mpr ⟨_, horigin⟩
    have hsize := NameMap.size_erase ns.bindings function
    rw [if_pos hcontains] at hsize
    rw [dropFunction_of_isBare ⟨origin, horigin⟩, if_pos ⟨origin, horigin⟩, hsize]
    rfl
  · rw [dropFunction_of_not_isBare h, if_neg h]
    rfl

/-! ### The fold of insertions -/

/-- What no test is named stays as it was. -/
theorem get?_foldl_bindTest_of_notMem {tests : List (TestCase R)} {name : String}
    (h : ∀ t ∈ tests, t.name ≠ name) (bindings : NameMap (Binding R)) :
    (tests.foldl bindTest bindings).get? name = bindings.get? name := by
  induction tests generalizing bindings with
  | nil => rfl
  | cons t rest ih =>
    obtain ⟨hne, hrest⟩ := List.forall_mem_cons.mp h
    rw [List.foldl_cons, ih hrest, bindTest, NameMap.get?_insert, if_neg (Ne.symm hne)]

/-- Among tests of distinct names, each is found under its own. -/
theorem get?_foldl_bindTest_of_mem {tests : List (TestCase R)} {t : TestCase R}
    (hnodup : (tests.map TestCase.name).Nodup) (hmem : t ∈ tests)
    (bindings : NameMap (Binding R)) :
    (tests.foldl bindTest bindings).get? t.name = some (.test t) := by
  induction tests generalizing bindings with
  | nil => cases hmem
  | cons first rest ih =>
    rw [List.map_cons] at hnodup
    obtain ⟨hfirst, hrest⟩ := List.nodup_cons.mp hnodup
    rw [List.foldl_cons]
    rcases List.mem_cons.mp hmem with rfl | hmem
    · -- no later test has this name, so what is inserted first stays
      rw [get?_foldl_bindTest_of_notMem (fun u hu heq => hfirst (List.mem_map.mpr ⟨u, hu, heq⟩)),
        bindTest, NameMap.get?_insert, if_pos rfl]
    · exact ih hrest hmem _

/-- Tests of distinct names that are free add one entry each. -/
theorem size_foldl_bindTest {tests : List (TestCase R)}
    (hnodup : (tests.map TestCase.name).Nodup) (bindings : NameMap (Binding R))
    (hfree : ∀ t ∈ tests, bindings.contains t.name = false) :
    (tests.foldl bindTest bindings).size = bindings.size + tests.length := by
  induction tests generalizing bindings with
  | nil => rfl
  | cons first rest ih =>
    rw [List.map_cons] at hnodup
    obtain ⟨hfirst, hrest⟩ := List.nodup_cons.mp hnodup
    obtain ⟨hfree, hfrees⟩ := List.forall_mem_cons.mp hfree
    have hsize : (bindTest bindings first).size = bindings.size + 1 := by
      rw [bindTest, NameMap.size_insert, hfree]
      rfl
    -- what is still to come stays free, since the first name is none of the others
    have hfrees' : ∀ t ∈ rest, (bindTest bindings first).contains t.name = false := by
      intro t ht
      have hne : t.name ≠ first.name := fun heq => hfirst (List.mem_map.mpr ⟨t, ht, heq⟩)
      rw [NameMap.contains, bindTest, NameMap.get?_insert, if_neg hne]
      exact hfrees t ht
    rw [List.foldl_cons, ih hrest _ hfrees', hsize, List.length_cons]
    omega

/-! ## Injecting -/

/-- The namespace that an injection leaves when it is not refused. -/
def injected (ns : Namespace R) (e : Expansion R) : Namespace R :=
  { ns with bindings := e.tests.foldl bindTest (dropFunction ns.bindings e.origin.name) }

/-- An injection whose names are free binds them. -/
theorem inject_of_free {ns : Namespace R} {e : Expansion R}
    (h : ∀ t ∈ e.tests, ns.get? t.name = none) : ns.inject e = (.ok e.names, ns.injected e) := by
  have hfree : (e.tests.find? fun t => ns.contains t.name) = none := by
    simp only [List.find?_eq_none, Bool.not_eq_true, contains_eq_false_iff]
    exact h
  rw [inject, hfree]
  rfl

/-- An injection is refused at the first name that is taken, for the data set of its test, and
leaves everything as it was. -/
theorem inject_of_taken {ns : Namespace R} {e : Expansion R} {before after : List (TestCase R)}
    {t : TestCase R} (hsplit : e.tests = before ++ t :: after)
    (hbefore : ∀ u ∈ before, ns.get? u.name = none) (htaken : ns.get? t.name ≠ none) :
    ns.inject e = (.error (.duplicateName t.name t.dataSet), ns) := by
  have hfirst : (e.tests.find? fun t => ns.contains t.name) = some t := by
    refine List.find?_eq_some_iff_append.mpr ⟨contains_eq_true_iff.mpr htaken, before, after,
      hsplit, ?_⟩
    intro u hu
    rw [contains_eq_false_iff.mpr (hbefore u hu)]
    rfl
  rw [inject, hfirst]

/-- **What an injection can do**: bind all tests, whose names are all free then, or nothing at all,
and then there is a first test whose name is taken. -/
theorem inject_cases (ns : Namespace R) (e : Expansion R) :
    ((∀ t ∈ e.tests, ns.get? t.name = none) ∧ ns.inject e = (.ok e.names, ns.injected e)) ∨
      ∃ before t after, e.tests = before ++ t :: after ∧
        (∀ u ∈ before, ns.get? u.name = none) ∧ ns.get? t.name ≠ none ∧
        ns.inject e = (.error (.duplicateName t.name t.dataSet), ns) := by
  cases hfind : e.tests.find? fun t => ns.contains t.name with
  | none =>
    simp only [List.find?_eq_none, Bool.not_eq_true, contains_eq_false_iff] at hfind
    exact .inl ⟨hfind, inject_of_free hfind⟩
  | some t =>
    simp only [List.find?_eq_some_iff_append, contains_eq_true_iff, Bool.not_eq_true',
      contains_eq_false_iff] at hfind
    obtain ⟨htaken, before, after, hsplit, hbefore⟩ := hfind
    have hrefused := inject_of_taken hsplit hbefore htaken
    exact .inr ⟨before, t, after, hsplit, hbefore, htaken, hrefused⟩

/-- **An injection is accepted exactly when every name is free**; then its answer is the names. -/
theorem answer_inject_eq_ok_iff {ns : Namespace R} {e : Expansion R} {names : List String} :
    (ns.inject e).1 = .ok names ↔ (∀ t ∈ e.tests, ns.get? t.name = none) ∧ names = e.names := by
  rcases inject_cases ns e with ⟨hfree, hbound⟩ | ⟨before, t, after, hsplit, _, htaken, hrefused⟩
  · rw [hbound, Except.ok.injEq, eq_comm]
    exact (and_iff_right hfree).symm
  · have ht : t ∈ e.tests := hsplit ▸ List.mem_append_right _ List.mem_cons_self
    rw [hrefused]
    simp only [reduceCtorEq, false_iff, not_and]
    exact fun hfree => absurd (hfree t ht) htaken

/-- What an accepted injection answers and leaves. -/
theorem inject_eq_ok_iff {ns next : Namespace R} {e : Expansion R} {names : List String} :
    ns.inject e = (.ok names, next) ↔
      (∀ t ∈ e.tests, ns.get? t.name = none) ∧ names = e.names ∧ next = ns.injected e := by
  constructor
  · intro h
    have hanswer : (ns.inject e).1 = .ok names := congrArg Prod.fst h
    obtain ⟨hfree, rfl⟩ := answer_inject_eq_ok_iff.mp hanswer
    rw [inject_of_free hfree] at h
    exact ⟨hfree, rfl, (congrArg Prod.snd h).symm⟩
  · rintro ⟨hfree, rfl, rfl⟩
    exact inject_of_free hfree

/-- **An injection that is refused leaves everything as it was.** -/
theorem inject_of_answer_error {ns : Namespace R} {e : Expansion R} {p : Problem}
    (h : (ns.inject e).1 = .error p) : ns.inject e = (.error p, ns) := by
  rcases inject_cases ns e with ⟨_, hbound⟩ | ⟨_, t, _, _, _, _, hrefused⟩
  · rw [hbound] at h
    cases h
  · rw [hrefused] at h ⊢
    rw [Except.error.inj h]

/-- Every test that is injected is found under its name. -/
theorem get?_injected_of_mem {e : Expansion R} (he : e.Separate) (ns : Namespace R)
    {t : TestCase R} (ht : t ∈ e.tests) : (ns.injected e).get? t.name = some (.test t) :=
  get?_foldl_bindTest_of_mem he.names_nodup ht _

/-- **Looking up after an injection.** -/
theorem get?_injected {e : Expansion R} (he : e.Separate) (ns : Namespace R) (name : String) :
    (ns.injected e).get? name =
      match e.get? name with
      | some t => some (.test t)
      | none => if name = e.origin.name ∧ ns.IsBare e.origin.name then none else ns.get? name := by
  show (e.tests.foldl bindTest _).get? name = _
  cases h : e.get? name with
  | some t =>
    obtain ⟨hmem, rfl⟩ := Expansion.of_get? h
    exact get?_injected_of_mem he ns hmem
  | none =>
    have hnone : ∀ t ∈ e.tests, t.name ≠ name := fun t ht heq =>
      Expansion.get?_eq_none_iff.mp h (Expansion.mem_names_iff.mpr ⟨t, ht, heq⟩)
    rw [get?_foldl_bindTest_of_notMem hnone, get?_dropFunction]

theorem size_injected {e : Expansion R} (he : e.Separate) {ns : Namespace R}
    (hfree : ∀ t ∈ e.tests, ns.get? t.name = none) :
    (ns.injected e).size + (if ns.IsBare e.origin.name then 1 else 0) = ns.size + e.size := by
  have hfrees : ∀ t ∈ e.tests,
      (dropFunction ns.bindings e.origin.name).contains t.name = false := by
    intro t ht
    rw [NameMap.contains, get?_dropFunction, hfree t ht, ite_self]
    rfl
  have hfold := size_foldl_bindTest he.names_nodup _ hfrees
  have hdrop := size_dropFunction ns e.origin.name
  show (e.tests.foldl bindTest _).size + _ = ns.size + e.tests.length
  omega

end Namespace

/-! ## Decorating -/

namespace CaseTable

variable [Cell V] {table : CaseTable V} {f : TestFunction V R}

/-- **A function that expands is decorated by injecting its expansion.** -/
theorem decorate_of_ok {e : Expansion R} (h : (table.expand f).outcome = .ok e)
    (ns : Namespace R) :
    table.decorate ns f = (⟨(table.expand f).warnings, (ns.inject e).1⟩, (ns.inject e).2) := by
  rw [decorate, h]

/-- **A function that does not expand changes nothing.** -/
theorem decorate_of_error {p : Problem} (h : (table.expand f).outcome = .error p)
    (ns : Namespace R) : table.decorate ns f = (⟨(table.expand f).warnings, .error p⟩, ns) := by
  rw [decorate, h]

/-- Decorating warns of what the expansion warns of. -/
theorem warnings_decorate (table : CaseTable V) (ns : Namespace R) (f : TestFunction V R) :
    (table.decorate ns f).1.warnings = (table.expand f).warnings := by
  cases h : (table.expand f).outcome with
  | ok e => rw [decorate_of_ok h]
  | error p => rw [decorate_of_error h]

/-- A function is decorated just if it expands and its expansion can be injected. -/
theorem decorate_accepted_iff {ns next : Namespace R} {names : List String} :
    (table.decorate ns f).1.outcome = .ok names ∧ (table.decorate ns f).2 = next ↔
      ∃ e, (table.expand f).outcome = .ok e ∧ ns.inject e = (.ok names, next) := by
  cases h : (table.expand f).outcome with
  | ok e => simp [decorate_of_ok h, Prod.ext_iff]
  | error p => simp [decorate_of_error h]

end CaseTable

/-! ## All or none -/

/-- **What an accepted injection does**: every test is bound under its name, the function is
released if it was bare, and every other name keeps what it had. -/
structure BindsAll (ns : Namespace R) (function : String) (e : Expansion R)
    (next : Namespace R) : Prop where
  generated : ∀ t ∈ e.tests, next.get? t.name = some (.test t)
  released : ns.IsBare function → next.get? function = none
  kept : ∀ name, name ∉ e.names → ¬ (name = function ∧ ns.IsBare function) →
    next.get? name = ns.get? name
  size : next.size + (if ns.IsBare function then 1 else 0) = ns.size + e.size

/-- **All tests or none**, by the answer of an operation and the namespace that it leaves: the first
test whose name is taken is reported and nothing changes, or no name is taken and all tests are
bound. -/
structure AllOrNone (ns : Namespace R) (function : String) (e : Expansion R)
    (answer : Except Problem (List String)) (left : Namespace R) : Prop where
  refused : (∃ t ∈ e.tests, ns.get? t.name ≠ none) →
    ∃ before t after, e.tests = before ++ t :: after ∧
      (∀ u ∈ before, ns.get? u.name = none) ∧ ns.get? t.name ≠ none ∧
      answer = .error (.duplicateName t.name t.dataSet) ∧ left = ns
  accepted : (∀ t ∈ e.tests, ns.get? t.name = none) →
    answer = .ok e.names ∧ BindsAll ns function e left

namespace Namespace

theorem bindsAll_injected {ns : Namespace R} {e : Expansion R} (he : e.Separate)
    (hfree : ∀ t ∈ e.tests, ns.get? t.name = none) :
    BindsAll ns e.origin.name e (ns.injected e) where
  generated := by
    intro t ht
    exact get?_injected_of_mem he ns ht
  released := by
    intro hbare
    rw [get?_injected he, Expansion.get?_eq_none_iff.mpr he.origin_notMem]
    exact if_pos ⟨rfl, hbare⟩
  kept := by
    intro name hname hbare
    rw [get?_injected he, Expansion.get?_eq_none_iff.mpr hname]
    exact if_neg hbare
  size := size_injected he hfree

theorem allOrNone_inject {e : Expansion R} (he : e.Separate) (ns : Namespace R) :
    AllOrNone ns e.origin.name e (ns.inject e).1 (ns.inject e).2 where
  refused := by
    rintro ⟨t, ht, hbound⟩
    rcases inject_cases ns e with ⟨hfree, _⟩ | ⟨before, first, after, hsplit, hbefore, htaken, h⟩
    · exact absurd (hfree t ht) hbound
    · rw [h]
      exact ⟨before, first, after, hsplit, hbefore, htaken, rfl, rfl⟩
  accepted := by
    intro hfree
    rw [inject_of_free hfree]
    exact ⟨rfl, bindsAll_injected he hfree⟩

end Namespace

/-- **Injecting and decorating are all or nothing.** On every namespace, what a function expands
to is bound whole or refused at the first name that is taken; decorating does the same, and passes
on the problem of a function that does not expand, with the namespace as it was. -/
theorem injection_all_or_none [Cell V] (ns : Namespace R) (policy : ArityPolicy)
    (parameters : List String) (sets : DataSets V) (f : TestFunction V R) :
    let decorated := CaseTable.decorate ⟨parameters, sets, policy⟩ ns f
    (∀ e, (expandWith policy parameters sets f).outcome = .ok e →
      AllOrNone ns f.name e (ns.inject e).1 (ns.inject e).2 ∧
      AllOrNone ns f.name e decorated.1.outcome decorated.2) ∧
    (∀ p, (expandWith policy parameters sets f).outcome = .error p →
      decorated.1.outcome = .error p ∧ decorated.2 = ns) := by
  intro decorated
  constructor
  · intro e h
    have horigin : e.origin.name = f.name := by
      rw [(outcome_expandWith_eq_ok_iff.mp h).2]
      rfl
    have hinject := Namespace.allOrNone_inject (separate_of_outcome h) ns
    rw [horigin] at hinject
    have htable : (CaseTable.expand ⟨parameters, sets, policy⟩ f).outcome = .ok e := h
    have hdecorate : decorated = (⟨_, (ns.inject e).1⟩, (ns.inject e).2) :=
      CaseTable.decorate_of_ok htable ns
    rw [hdecorate]
    exact ⟨hinject, hinject⟩
  · intro p h
    have htable : (CaseTable.expand ⟨parameters, sets, policy⟩ f).outcome = .error p := h
    have hdecorate : decorated = (⟨_, .error p⟩, ns) := CaseTable.decorate_of_error htable ns
    rw [hdecorate]
    exact ⟨rfl, rfl⟩

end Casewise
