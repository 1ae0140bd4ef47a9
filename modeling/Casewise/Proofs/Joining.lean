import Mathlib.Data.List.Induction
import Casewise.Proofs.Violations

/-!
# Casewise.Proofs.Joining -- which joined names are equal, and which can be used

The name of a function and the name of a data set are joined by an underscore, and both may hold
underscores of their own. The joined name can therefore be read in more than one way, and this
module says in how many. Joining is associative (`generatedName_assoc`), so what stands between
two underscores can be moved from the end of the function to the front of the data set; nothing
else makes two joined names equal (`generatedName_eq_iff`). In the words of the functions: two of
them can meet only where the name of one continues the name of the other.

Joining is also what the rule for data sets is made for. Behind an identifier, a text that is not
empty keeps the joined name an identifier just if it is a fragment
(`isFragment_iff_isIdentifier_generatedName`). What is generated can therefore be expanded again as
if somebody had written it. `Descends` is the relation between a name and the names that expanding
over and over leads to. It is one chain of fragments, however the functions, their modules and the
types of their values change from one round to the next (`descends_iff`), and no round after the
first can fail on the name of its function.
-/

namespace Casewise

namespace Identifier

/-! ## Equal joined names -/

/-- What starts with a mark and ends behind another mark: the two are one, or the first starts what
stands before the second. -/
theorem cons_eq_append_cons_iff {α : Type} {mark : α} {us rest vs : List α} :
    mark :: us = rest ++ mark :: vs ↔
      (rest = [] ∧ us = vs) ∨ ∃ between, rest = mark :: between ∧ us = between ++ mark :: vs := by
  rw [List.cons_eq_append_iff]
  simp [eq_comm]

/-- Two lists that are each split at a mark are equal just if the marks meet, or the list behind one
of them holds the other. -/
theorem append_cons_eq_append_cons_iff {α : Type} {mark : α} {xs ys us vs : List α} :
    xs ++ mark :: us = ys ++ mark :: vs ↔
      (xs = ys ∧ us = vs) ∨ (∃ between, ys = xs ++ mark :: between ∧ us = between ++ mark :: vs) ∨
        ∃ between, xs = ys ++ mark :: between ∧ vs = between ++ mark :: us := by
  constructor
  · intro h
    rcases List.append_eq_append_iff.mp h with ⟨rest, rfl, hrest⟩ | ⟨rest, rfl, hrest⟩
    · rcases cons_eq_append_cons_iff.mp hrest with ⟨rfl, hus⟩ | ⟨between, rfl, hus⟩
      · exact .inl ⟨(List.append_nil xs).symm, hus⟩
      · exact .inr (.inl ⟨between, rfl, hus⟩)
    · rcases cons_eq_append_cons_iff.mp hrest with ⟨rfl, hvs⟩ | ⟨between, rfl, hvs⟩
      · exact .inl ⟨List.append_nil ys, hvs.symm⟩
      · exact .inr (.inr ⟨between, rfl, hvs⟩)
  · rintro (⟨rfl, rfl⟩ | ⟨between, rfl, rfl⟩ | ⟨between, rfl, rfl⟩)
    · rfl
    · rw [List.append_assoc, List.cons_append]
    · rw [List.append_assoc, List.cons_append]

theorem toList_generatedName (function dataSet : String) :
    (generatedName function dataSet).toList = function.toList ++ '_' :: dataSet.toList := by
  simp [generatedName, separator]

/-- **Joining is associative.** -/
theorem generatedName_assoc (first middle last : String) :
    generatedName (generatedName first middle) last =
      generatedName first (generatedName middle last) := by
  apply String.toList_inj.mp
  simp only [toList_generatedName, List.append_assoc, List.cons_append]

/-- **When two joined names are equal**: their parts are, or the function of one goes on with an
underscore and a text that the data set of the other starts with. -/
theorem generatedName_eq_iff {f d g e : String} :
    generatedName f d = generatedName g e ↔
      (f = g ∧ d = e) ∨ (∃ s, g = generatedName f s ∧ d = generatedName s e) ∨
        ∃ s, f = generatedName g s ∧ e = generatedName s d := by
  -- a text between the marks is the list of its characters
  have hbetween : ∀ x y u v : String,
      (∃ s, y = generatedName x s ∧ u = generatedName s v) ↔
        ∃ between, y.toList = x.toList ++ '_' :: between ∧
          u.toList = between ++ '_' :: v.toList := by
    intro x y u v
    simp only [← String.toList_inj, toList_generatedName]
    constructor
    · rintro ⟨s, hy, hu⟩
      exact ⟨s.toList, hy, hu⟩
    · rintro ⟨between, hy, hu⟩
      exact ⟨String.ofList between, by simpa using hy, by simpa using hu⟩
  rw [hbetween, hbetween, ← String.toList_inj, ← String.toList_inj, ← String.toList_inj,
    toList_generatedName, toList_generatedName, append_cons_eq_append_cons_iff]

/-- Two functions can meet in a generated name just where one continues the other. -/
theorem exists_generatedName_eq_iff {f g : String} (h : f ≠ g) :
    (∃ d e, generatedName f d = generatedName g e) ↔
      (∃ s, g = generatedName f s) ∨ ∃ s, f = generatedName g s := by
  constructor
  · rintro ⟨d, e, heq⟩
    rcases generatedName_eq_iff.mp heq with ⟨hsame, _⟩ | ⟨s, hg, _⟩ | ⟨s, hf, _⟩
    · exact absurd hsame h
    · exact .inl ⟨s, hg⟩
    · exact .inr ⟨s, hf⟩
  · rintro (⟨s, rfl⟩ | ⟨s, rfl⟩)
    · exact ⟨generatedName s "0", "0", (generatedName_assoc f s "0").symm⟩
    · exact ⟨"0", generatedName s "0", generatedName_assoc g s "0"⟩

/-- **The exact collisions of generated names.** Two of them are equal just if their parts are, or
if the function of one is that of the other, an underscore and some text, and the data set of the
other is that text, an underscore and the data set of the one. So the function and the generated
name determine the data set, no function is named like one of its own tests, and two functions can
meet just where one continues the other behind an underscore. -/
theorem generated_name_collisions :
    (∀ f d g e : String, generatedName f d = generatedName g e ↔
      (f = g ∧ d = e) ∨ (∃ s, g = f ++ "_" ++ s ∧ d = s ++ "_" ++ e) ∨
        ∃ s, f = g ++ "_" ++ s ∧ e = s ++ "_" ++ d) ∧
    (∀ f d e : String, generatedName f d = generatedName f e → d = e) ∧
    (∀ f d : String, generatedName f d ≠ f) ∧
    ∀ f g : String, f ≠ g →
      ((∃ d e, generatedName f d = generatedName g e) ↔
        (∃ s, g = f ++ "_" ++ s) ∨ ∃ s, f = g ++ "_" ++ s) := by
  refine ⟨fun f d g e => ?_, fun f d e => ?_, fun f d => ?_, fun f g h => ?_⟩
  · exact generatedName_eq_iff
  · exact generatedName_right_inj.mp
  · exact generatedName_ne_function f d
  · exact exists_generatedName_eq_iff h

/-- The text that moves from one part to the other may be empty. -/
example : generatedName "f" "_d" = generatedName "f_" "d" := rfl

/-! ## Usable joined names -/

/-- What stands behind an identifier decides whether the joined name is one. -/
theorem isIdentifier_generatedName_iff {f d : String} (hf : IsIdentifier f) :
    IsIdentifier (generatedName f d) ↔ ∀ c ∈ d.toList, IsWord c := by
  obtain ⟨_, c, rest, hchars, hc, hrest⟩ := hf
  have hjoined : (generatedName f d).toList = c :: (rest ++ '_' :: d.toList) := by
    rw [toList_generatedName, hchars, List.cons_append]
  constructor
  · rintro ⟨_, c', rest', hchars', _, hrest'⟩ x hx
    obtain ⟨_, rfl⟩ := List.cons.inj (hjoined.symm.trans hchars')
    apply hrest'
    exact List.mem_append_right rest (List.mem_cons_of_mem _ hx)
  · intro hd
    refine ⟨?_, c, _, hjoined, hc, ?_⟩
    · -- the joined name is longer than the underscore alone
      intro hlone
      rw [hlone] at hjoined
      have hlength := congrArg List.length hjoined
      simp at hlength
    · intro x hx
      rcases List.mem_append.mp hx with hx | hx
      · exact hrest x hx
      · rcases List.mem_cons.mp hx with rfl | hx
        · exact .inl (.inr rfl)
        · exact hd x hx

/-- **Behind an identifier, fragments are what keeps the joined name an identifier.** -/
theorem isFragment_iff_isIdentifier_generatedName {f d : String} (hf : IsIdentifier f) :
    IsFragment d ↔ d ≠ "" ∧ IsIdentifier (generatedName f d) := by
  rw [isIdentifier_generatedName_iff hf]
  exact Iff.rfl

/-- Fragments can be joined behind an identifier one after the other. -/
theorem isIdentifier_foldl_generatedName {start : String} {fragments : List String}
    (hstart : IsIdentifier start) (hfragments : ∀ d ∈ fragments, IsFragment d) :
    IsIdentifier (fragments.foldl generatedName start) := by
  induction fragments generalizing start with
  | nil => exact hstart
  | cons d rest ih =>
    obtain ⟨hd, hrest⟩ := List.forall_mem_cons.mp hfragments
    apply ih _ hrest
    exact ((isFragment_iff_isIdentifier_generatedName hstart).mp hd).2

end Identifier

open Identifier

/-! ## Expanding what has been generated -/

section Tests

variable {V R : Type} [Cell V] {policy : ArityPolicy} {parameters : List String}
  {sets : DataSets V} {f : TestFunction V R} {e : Expansion R} {t : TestCase R}

/-- A test is named by the function and a fragment, and the function by an identifier. -/
theorem exists_fragment_of_mem_tests (h : (expandWith policy parameters sets f).outcome = .ok e)
    (ht : t ∈ e.tests) :
    IsIdentifier f.name ∧ ∃ d, IsFragment d ∧ t.name = generatedName f.name d := by
  obtain ⟨hexpandable, rfl⟩ := outcome_expandWith_eq_ok_iff.mp h
  obtain ⟨set, hset, rfl⟩ := List.mem_map.mp ht
  refine ⟨hexpandable.function_valid, set.1, ?_, rfl⟩
  exact hexpandable.names_valid set.1 (List.mem_map_of_mem hset)

/-- **The name of a generated test is an identifier.** -/
theorem isIdentifier_of_mem_tests (h : (expandWith policy parameters sets f).outcome = .ok e)
    (ht : t ∈ e.tests) : IsIdentifier t.name := by
  obtain ⟨hfunction, d, hd, hname⟩ := exists_fragment_of_mem_tests h ht
  rw [hname]
  exact ((isFragment_iff_isIdentifier_generatedName hfunction).mp hd).2

/-- **A problem with the name of a function is a problem with the name of this function**, and one
that the name has. -/
theorem outcome_eq_function_error_iff {given : String} {fault : Fault} :
    (expandWith policy parameters sets f).outcome =
        .error (.invalidIdentifier given .function fault) ↔
      given = f.name ∧ Role.function.Rejects f.name fault := by
  rw [outcome_expandWith_eq_error_iff]
  constructor
  · -- all other violations name a parameter, a data set or a row
    intro h
    cases h with
    | function reason => exact ⟨rfl, reason⟩
    | parameter _ _ _ _ violation => cases violation
    | @dataSet _ _ set _ _ _ violation =>
      obtain ⟨dataSet, row⟩ := set
      cases violation with
      | row _ violation => cases violation
  · rintro ⟨rfl, reason⟩
    exact .function reason

end Tests

/-- **The names that expanding over and over leads to**: in each round a function that is named
like a test of the round before is expanded, whatever its parameters, its data sets and the types
of its values are. -/
inductive Descends (start : String) : Nat → String → Prop
  | start : Descends start 0 start
  | expand {V R : Type} [Cell V] {policy : ArityPolicy} {parameters : List String}
    {sets : DataSets V} {f : TestFunction V R} {e : Expansion R} {t : TestCase R} {depth : Nat}
    (earlier : Descends start depth f.name)
    (expands : (expandWith policy parameters sets f).outcome = .ok e) (mem : t ∈ e.tests) :
    Descends start (depth + 1) t.name

namespace Descends

/-- Whatever the first name is, all later ones are identifiers. -/
theorem isIdentifier {start name : String} {depth : Nat} (h : Descends start (depth + 1) name) :
    IsIdentifier name := by
  cases h with
  | expand _ expands mem => exact isIdentifier_of_mem_tests expands mem

/-- A name that has been reached can be continued by any fragment. -/
theorem snoc {start name d : String} {depth : Nat} (h : Descends start depth name)
    (hname : IsIdentifier name) (hd : IsFragment d) :
    Descends start (depth + 1) (generatedName name d) := by
  have hexpands := outcome_expandWith_nullary hname hd
  exact expand (f := .nullary name) h hexpands List.mem_cons_self

end Descends

/-- **What expanding over and over leads to**: one fragment in each round, behind the first name. -/
theorem descends_iff {start name : String} {depth : Nat} (hstart : IsIdentifier start) :
    Descends start depth name ↔
      ∃ fragments : List String, fragments.length = depth ∧ (∀ d ∈ fragments, IsFragment d) ∧
        name = fragments.foldl generatedName start := by
  constructor
  · intro h
    induction h with
    | start => exact ⟨[], rfl, by simp, rfl⟩
    | expand _ expands mem ih =>
      obtain ⟨fragments, hlength, hfragments, hname⟩ := ih
      obtain ⟨_, d, hd, htest⟩ := exists_fragment_of_mem_tests expands mem
      refine ⟨fragments ++ [d], ?_, ?_, ?_⟩
      · rw [List.length_append, hlength, List.length_singleton]
      · exact List.forall_mem_append.mpr ⟨hfragments, List.forall_mem_singleton.mpr hd⟩
      · rw [htest, hname, List.foldl_append]
        rfl
  · rintro ⟨fragments, rfl, hfragments, rfl⟩
    -- the last fragment is that of the last round
    induction fragments using List.reverseRecOn with
    | nil => exact .start
    | append_singleton fragments d ih =>
      obtain ⟨hearlier, hlast⟩ := List.forall_mem_append.mp hfragments
      have hd : IsFragment d := hlast d List.mem_cons_self
      rw [List.length_append, List.foldl_append]
      exact (ih hearlier).snoc (isIdentifier_foldl_generatedName hstart hearlier) hd

/-- **The rule for data sets is exactly what keeps joined names usable.** Behind the name of a
function a data set is accepted just if its name is not empty and the joined name is accepted for a
function. So the name of every generated test is, and a function that is named like one never fails
on its name, in whatever round of expanding over and over; from a usable name, these rounds lead to
every chain of accepted data sets and to nothing else. -/
theorem fragment_rule_exact :
    (∀ f d : String, checkName .function f = .ok () →
      (checkName .dataSet d = .ok () ↔
        d ≠ "" ∧ checkName .function (generatedName f d) = .ok ())) ∧
    (∀ {V R : Type} [Cell V] (policy : ArityPolicy) (parameters : List String) (sets : DataSets V)
      (f : TestFunction V R) (e : Expansion R),
      (expandWith policy parameters sets f).outcome = .ok e →
        ∀ t ∈ e.tests, checkName .function t.name = .ok ()) ∧
    (∀ (start : String) (depth : Nat) (name : String), Descends start (depth + 1) name →
      checkName .function name = .ok () ∧
      ∀ {V R : Type} [Cell V] (policy : ArityPolicy) (parameters : List String)
        (sets : DataSets V) (f : TestFunction V R), f.name = name → ∀ given fault,
          (expandWith policy parameters sets f).outcome ≠
            .error (.invalidIdentifier given .function fault)) ∧
    (∀ (start : String) (depth : Nat) (name : String), checkName .function start = .ok () →
      (Descends start depth name ↔
        ∃ fragments : List String, fragments.length = depth ∧
          (∀ d ∈ fragments, checkName .dataSet d = .ok ()) ∧
          name = fragments.foldl generatedName start)) := by
  simp only [checkName_eq_ok_iff, Role.Admits]
  refine ⟨fun f d hf => ?_, fun policy parameters sets f e h t ht => ?_,
    fun start depth name h => ⟨h.isIdentifier, ?_⟩, fun start depth name hstart => ?_⟩
  · exact isFragment_iff_isIdentifier_generatedName hf
  · exact isIdentifier_of_mem_tests h ht
  · intro V R _ policy parameters sets f hname given fault hproblem
    obtain ⟨_, hrejects⟩ := outcome_eq_function_error_iff.mp hproblem
    rw [hname] at hrejects
    exact hrejects.not_admits h.isIdentifier
  · exact descends_iff hstart

theorem twice_expanded_usable :
    checkName .function "test" = .ok () ∧ Descends "test" 2 "test_0_b" ∧
      checkName .function "test_0_b" = .ok () := by
  have hstart : checkName .function "test" = .ok () := rfl
  obtain ⟨_, _, husable, hchain⟩ := fragment_rule_exact
  have hdescends : Descends "test" 2 "test_0_b" :=
    (hchain "test" 2 "test_0_b" hstart).mpr ⟨["0", "b"], rfl, by decide, rfl⟩
  exact ⟨hstart, hdescends, (husable "test" 1 "test_0_b" hdescends).1⟩

end Casewise
