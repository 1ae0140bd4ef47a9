import Mathlib.Data.List.Perm.Basic
import Mathlib.Data.List.Nodup
import Casewise.Proofs.Discovery
import Casewise.Proofs.Joining

/-!
# Casewise.Proofs.Siblings -- the tests of one function are discovered together

Discovery asks how the name of a test starts, and the name of a generated test starts with the name
of its function. The two are not the same question: what is asked for may end within the name of
the function, at the underscore behind it, or within the name of the data set. It is the underscore
that decides. A word with an underscore behind it starts a joined name just if the function is that
word or starts so itself (`isPrefix_generatedName_iff`), so no data set can bring a test into
discovery or keep it out, and either all tests of a function are discovered or none is.

Injecting an expansion changes nothing about the tests that were bound before, so what is
discovered afterwards is what was discovered before, and the tests of the function where they
belong by name (`discoveredTogether_injected`).
-/

namespace Casewise

open Identifier

/-! ## What decides how a joined name starts -/

namespace Identifier

/-- **A word with an underscore behind it starts a joined name just if the function is that word or
starts so itself.** -/
theorem isPrefix_generatedName_iff {word function dataSet : String} (h : '_' ∉ word.toList) :
    (word ++ "_").toList <+: (generatedName function dataSet).toList ↔
      function = word ∨ (word ++ "_").toList <+: function.toList := by
  have hword : ∀ rest, (word ++ "_").toList ++ rest = word.toList ++ '_' :: rest := by
    intro rest
    simp
  rw [toList_generatedName, ← String.toList_inj]
  constructor
  · rintro ⟨rest, hrest⟩
    rw [hword] at hrest
    rcases append_cons_eq_append_cons_iff.mp hrest with ⟨hsame, _⟩ | ⟨between, hlonger, _⟩ |
      ⟨between, hshorter, _⟩
    · exact .inl hsame.symm
    · exact .inr ⟨between, by rw [hword, hlonger]⟩
    · -- the word would hold the underscore behind the function
      refine absurd ?_ h
      rw [hshorter]
      exact List.mem_append_right _ List.mem_cons_self
  · rintro (hsame | ⟨rest, hrest⟩)
    · exact ⟨dataSet.toList, by rw [hword, hsame]⟩
    · exact ⟨rest ++ '_' :: dataSet.toList, by rw [← List.append_assoc, hrest]⟩

/-- **A function whose tests are discovered**: it is called `test`, or its name starts with `test`
and an underscore. -/
def IsTestFunction (function : String) : Prop :=
  function = "test" ∨ "test_".toList <+: function.toList

instance (function : String) : Decidable (IsTestFunction function) :=
  inferInstanceAs (Decidable (_ ∨ _))

/-- Whether a generated test is discovered is decided by its function alone. -/
theorem testPrefix_generatedName_iff {function dataSet : String} :
    Namespace.testPrefix.toList <+: (generatedName function dataSet).toList ↔
      IsTestFunction function := by
  have hunscored : '_' ∉ "test".toList := by decide
  exact isPrefix_generatedName_iff hunscored

end Identifier

variable {R : Type}

/-! ## What is discovered after an injection -/

/-- **The tests of a function are discovered together.** All of them are, in their places by name,
or none is; and whatever else is discovered is what was discovered before. -/
structure DiscoveredTogether (function : String) (e : Expansion R) (before after : Namespace R) :
    Prop where
  all : IsTestFunction function → ∀ t ∈ e.tests, t ∈ after.discover
  none : ¬ IsTestFunction function →
    (∀ t ∈ e.tests, t ∉ after.discover) ∧ after.discover = before.discover
  ascend : after.discover.Pairwise fun a b => Precedes a.name b.name
  own : IsTestFunction function →
    (after.discover.filter fun t => decide (t.name ∈ e.names)).Perm e.tests
  others : (after.discover.filter fun t => decide (t.name ∉ e.names)) = before.discover

namespace Namespace

variable {ns : Namespace R} {e : Expansion R}

/-- A name is bound to a test after an injection just if the injection binds that test or it was
bound before: the function that is released was no test. -/
theorem get?_injected_eq_test_iff (he : e.Separate) (hfree : ∀ t ∈ e.tests, ns.get? t.name = none)
    {name : String} {t : TestCase R} :
    (ns.injected e).get? name = some (.test t) ↔
      e.get? name = some t ∨ ns.get? name = some (.test t) := by
  rw [get?_injected he]
  cases hget : e.get? name with
  | some u =>
    obtain ⟨hmem, rfl⟩ := Expansion.of_get? hget
    simp [hfree u hmem]
  | none =>
    simp only [reduceCtorEq, false_or]
    split
    · rename_i hbare
      obtain ⟨rfl, origin, horigin⟩ := hbare
      simp [horigin]
    · rfl

/-- Tests that ascend by name are not repeated. -/
theorem nodup_of_ascending {xs : List (TestCase R)}
    (h : xs.Pairwise fun a b => a.name < b.name) : xs.Nodup := by
  apply h.imp
  intro a b hlt heq
  exact String.lt_irrefl b.name (heq ▸ hlt)

/-- Two lists of tests that ascend by name and hold the same tests are the same. -/
theorem eq_of_ascending {xs ys : List (TestCase R)} (hxs : xs.Pairwise fun a b => a.name < b.name)
    (hys : ys.Pairwise fun a b => a.name < b.name) (h : ∀ t, t ∈ xs ↔ t ∈ ys) : xs = ys := by
  refine List.Perm.eq_of_pairwise ?_ hxs hys ?_
  · intro a b _ _ hab hba
    exact absurd (String.lt_trans hab hba) (String.lt_irrefl a.name)
  · exact (List.perm_ext_iff_of_nodup (nodup_of_ascending hxs) (nodup_of_ascending hys)).mpr h

/-- What is discovered after an injection: the tests of the function, if its name is that of a
test, and what was discovered before. -/
theorem mem_discover_injected_iff (hns : ns.Filed) (he : e.Separate)
    (hfree : ∀ t ∈ e.tests, ns.get? t.name = none) {function : String}
    (hnames : ∀ t ∈ e.tests, ∃ d, t.name = generatedName function d) {t : TestCase R} :
    t ∈ (ns.injected e).discover ↔
      (t ∈ e.tests ∧ IsTestFunction function) ∨ t ∈ ns.discover := by
  unfold discover
  rw [(hns.injected he).mem_discoverFrom_iff, hns.mem_discoverFrom_iff,
    get?_injected_eq_test_iff he hfree, or_and_right]
  apply or_congr_left
  constructor
  · rintro ⟨hget, hstart⟩
    obtain ⟨hmem, _⟩ := Expansion.of_get? hget
    obtain ⟨d, hname⟩ := hnames t hmem
    rw [hname, testPrefix_generatedName_iff] at hstart
    exact ⟨hmem, hstart⟩
  · rintro ⟨hmem, hfunction⟩
    obtain ⟨d, hname⟩ := hnames t hmem
    refine ⟨Expansion.get?_of_mem he.names_nodup hmem, ?_⟩
    rw [hname]
    exact testPrefix_generatedName_iff.mpr hfunction

/-- What was discovered before an injection has none of the names that it binds. -/
theorem notMem_names_of_mem_discover (hns : ns.Filed)
    (hfree : ∀ t ∈ e.tests, ns.get? t.name = none) {t : TestCase R} (ht : t ∈ ns.discover) :
    t.name ∉ e.names := by
  intro hname
  obtain ⟨u, hu, heq⟩ := Expansion.mem_names_iff.mp hname
  have hbound := (hns.mem_discoverFrom_iff.mp ht).1
  rw [← heq, hfree u hu] at hbound
  cases hbound

/-- **Injecting an expansion brings its tests into discovery together.** -/
theorem discoveredTogether_injected (hns : ns.Filed) (he : e.Separate)
    (hfree : ∀ t ∈ e.tests, ns.get? t.name = none) {function : String}
    (hnames : ∀ t ∈ e.tests, ∃ d, t.name = generatedName function d) :
    DiscoveredTogether function e ns (ns.injected e) := by
  have hmem : ∀ t, t ∈ (ns.injected e).discover ↔ _ := fun t =>
    mem_discover_injected_iff hns he hfree hnames
  have hold : ∀ t ∈ ns.discover, t.name ∉ e.names := fun t =>
    notMem_names_of_mem_discover hns hfree
  have hnew : ∀ t ∈ e.tests, t.name ∈ e.names := fun t ht =>
    Expansion.mem_names_iff.mpr ⟨t, ht, rfl⟩
  have hascend := (hns.injected he).pairwise_discoverFrom testPrefix
  have hothers : ((ns.injected e).discover.filter fun t => decide (t.name ∉ e.names)) =
      ns.discover := by
    refine eq_of_ascending (hascend.filter _) (hns.pairwise_discoverFrom testPrefix) ?_
    intro t
    rw [List.mem_filter, hmem, decide_eq_true_eq]
    constructor
    · rintro ⟨⟨ht, _⟩ | ht, hname⟩
      · exact absurd (hnew t ht) hname
      · exact ht
    · intro ht
      exact ⟨.inr ht, hold t ht⟩
  refine ⟨fun hfunction t ht => ?_, fun hfunction => ?_, ?_, fun hfunction => ?_, hothers⟩
  · exact (hmem t).mpr (.inl ⟨ht, hfunction⟩)
  · have hnone : ∀ t ∈ (ns.injected e).discover, t.name ∉ e.names := by
      intro t ht
      rcases (hmem t).mp ht with ⟨_, hyes⟩ | ht
      · exact absurd hyes hfunction
      · exact hold t ht
    refine ⟨fun t ht hfound => hnone t hfound (hnew t ht), ?_⟩
    rw [← hothers]
    exact (List.filter_eq_self.mpr fun t ht => decide_eq_true (hnone t ht)).symm
  · exact hascend.imp precedes_iff.mpr
  · -- neither list repeats a name, and they hold the same tests
    have hnodup : (ns.injected e).discover.Nodup := nodup_of_ascending hascend
    apply (List.perm_ext_iff_of_nodup (hnodup.filter _) (List.Nodup.of_map _ he.names_nodup)).mpr
    intro t
    rw [List.mem_filter, hmem, decide_eq_true_eq]
    constructor
    · rintro ⟨⟨ht, _⟩ | ht, hname⟩
      · exact ht
      · exact absurd hname (hold t ht)
    · intro ht
      exact ⟨.inl ⟨ht, hfunction⟩, hnew t ht⟩

end Namespace

variable {V : Type} [Cell V]

/-- **The tests of one function are discovered together.** Whatever a namespace has been through,
once the expansion of a function has been injected, or the function decorated, all tests of the
expansion are discovered if the function is called `test` or its name starts with `test_`, and
none is otherwise, whatever the data sets are called. -/
theorem tests_discovered_together (modulePath : String) (operations : List (Operation R))
    (table : CaseTable V) (f : TestFunction V R) (e : Expansion R) (next : Namespace R)
    (hexpand : (table.expand f).outcome = .ok e)
    (haccepted :
      (∃ names, ((Namespace.empty modulePath).run operations).inject e = (.ok names, next)) ∨
      ∃ names,
        (table.decorate ((Namespace.empty modulePath).run operations) f).1.outcome = .ok names ∧
        (table.decorate ((Namespace.empty modulePath).run operations) f).2 = next) :
    DiscoveredTogether f.name e ((Namespace.empty modulePath).run operations) next := by
  obtain ⟨names, hinject⟩ :
      ∃ names, ((Namespace.empty modulePath).run operations).inject e = (.ok names, next) := by
    rcases haccepted with hinject | ⟨names, hdecorate⟩
    · exact hinject
    · obtain ⟨e', hexpand', hinject⟩ := CaseTable.decorate_accepted_iff.mp hdecorate
      obtain rfl := Except.ok.inj (hexpand.symm.trans hexpand')
      exact ⟨names, hinject⟩
  obtain ⟨hfree, -, rfl⟩ := Namespace.inject_eq_ok_iff.mp hinject
  have hfiled := Namespace.filed_run modulePath operations
  refine Namespace.discoveredTogether_injected hfiled (separate_of_outcome hexpand) hfree ?_
  intro t ht
  obtain ⟨_, d, _, hname⟩ := exists_fragment_of_mem_tests hexpand ht
  exact ⟨d, hname⟩

/-- Three data sets, the last of which would stand first by name. -/
def threeSets : CaseTable Bool :=
  ⟨[], ⟨[("b", .positional []), ("0", .positional []), ("_", .positional [])]⟩, .strict⟩

/-- A module with a test of its own and two bare functions. -/
def handWritten : List (Operation Unit) :=
  [.defineFunction ⟨"test", "m", none⟩, .defineTest "test_a" fun _ => (),
    .defineFunction ⟨"tested", "m", none⟩]

/-- The tests of `test` are discovered among the one that was there; those of `tested` are not. -/
theorem test_discovered_tested_not :
    let before := (Namespace.empty "m").run handWritten
    (∃ e next, (threeSets.expand (.nullary "test")).outcome = .ok e ∧
      before.inject e = (.ok ["test_b", "test_0", "test__"], next) ∧
      DiscoveredTogether "test" e before next ∧
      next.discover.map TestCase.name = ["test_0", "test__", "test_a", "test_b"]) ∧
    let (report, next) := threeSets.decorate before (.nullary "tested")
    ∃ e, (threeSets.expand (.nullary "tested")).outcome = .ok e ∧
      report.outcome = .ok ["tested_b", "tested_0", "tested__"] ∧
      DiscoveredTogether "tested" e before next ∧
      next.discover.map TestCase.name = ["test_a"] := by
  refine ⟨⟨_, _, rfl, rfl, ?_, rfl⟩, ⟨_, rfl, rfl, ?_, rfl⟩⟩
  · exact tests_discovered_together "m" handWritten threeSets (.nullary "test") _ _ rfl
      (.inl ⟨_, rfl⟩)
  · exact tests_discovered_together "m" handWritten threeSets (.nullary "tested") _ _ rfl
      (.inr ⟨_, rfl, rfl⟩)

end Casewise
