import Casewise.Proofs.Injection

/-!
# Casewise.Proofs.History -- what a name is bound to is told by what was done

A run is a list of operations on a namespace, each of which may succeed or fail, and the namespace
after it is a function of the namespace before it. `Step` says once what one operation can do:
define a function, bind a test to a free name, bind an expansion all of whose names are free,
remove a name, or nothing.

What holds at the end of a run then follows from what its steps start and end. A test is started by
the step that binds it and ended by removing its name or defining a function of it. A bare function
is started by its definition and ended by the same two, or by an injection of its expansion.
`holds_run_iff` is the one induction over runs: what a step law says of one operation, it says of
the last step that matters. `namespace_history` is its two instances.
-/

namespace Casewise

variable {R : Type}

/-! ## Operations and runs -/

/-- An expansion that some function has over some data sets. -/
def Expansion.Made (e : Expansion R) : Prop :=
  ∃ (V : Type) (_ : Cell V) (table : CaseTable V) (f : TestFunction V R),
    (table.expand f).outcome = .ok e

theorem Expansion.Made.separate {e : Expansion R} (h : e.Made) : e.Separate := by
  obtain ⟨V, _, table, f, houtcome⟩ := h
  exact separate_of_outcome houtcome

/-- **One operation on a namespace.** What is injected is what a function expanded to. -/
inductive Operation (R : Type) : Type 1 where
  | defineFunction (origin : Origin)
  | defineTest (name : String) (run : Unit → R)
  | inject (e : Expansion R) (made : e.Made)
  | decorate {V : Type} [Cell V] (table : CaseTable V) (f : TestFunction V R)
  | remove (name : String)

namespace Namespace

/-- The namespace after an operation. -/
def apply (ns : Namespace R) : Operation R → Namespace R
  | .defineFunction origin => (ns.defineFunction origin).2
  | .defineTest name run => (ns.defineTest name run).2
  | .inject e _ => (ns.inject e).2
  | @Operation.decorate _ _ _ table f => (table.decorate ns f).2
  | .remove name => (ns.remove name).2

/-- **The namespace after a run.** -/
def run (ns : Namespace R) (operations : List (Operation R)) : Namespace R :=
  operations.foldl apply ns

/-- The namespace that step `i` of a run finds. -/
def before (ns : Namespace R) (operations : List (Operation R)) (i : Nat) : Namespace R :=
  ns.run (operations.take i)

end Namespace

namespace Operation

/-! ## What a step starts and ends -/

/-- **A successful injection**, by itself or as a decoration. -/
inductive Injects (ns : Namespace R) : Operation R → Expansion R → Prop
  | inject {e : Expansion R} {made : e.Made} {names : List String}
      (accepted : (ns.inject e).1 = .ok names) : Injects ns (.inject e made) e
  | decorate {V : Type} [Cell V] {table : CaseTable V} {f : TestFunction V R} {e : Expansion R}
      {names : List String} (expands : (table.expand f).outcome = .ok e)
      (accepted : (table.decorate ns f).1.outcome = .ok names) :
      Injects ns (.decorate table f) e

/-- **A step that binds a test to a name**: a successful definition of the test, or a successful
injection of an expansion that contains it. -/
inductive Binds (ns : Namespace R) : Operation R → String → TestCase R → Prop
  | defined {name : String} {run : Unit → R}
      (accepted : (ns.defineTest name run).1 = .ok ()) :
      Binds ns (.defineTest name run) name (.plain name ns.modulePath run)
  | injected {operation : Operation R} {e : Expansion R} {t : TestCase R}
      (accepted : operation.Injects ns e) (mem : t ∈ e.tests) : Binds ns operation t.name t

/-- **A step that takes a name away** from whatever has it: its removal, or the definition of a
function of that name. -/
inductive Releases : Operation R → String → Prop
  | removed (name : String) : Releases (.remove name) name
  | redefined (origin : Origin) : Releases (.defineFunction origin) origin.name

/-- **A step that ends a bare function**: one that takes its name away, or a successful injection
of an expansion of a function of that name. -/
inductive Supersedes (ns : Namespace R) : Operation R → String → Prop
  | released {operation : Operation R} {name : String} (h : operation.Releases name) :
      Supersedes ns operation name
  | injected {operation : Operation R} {e : Expansion R} (accepted : operation.Injects ns e) :
      Supersedes ns operation e.origin.name

end Operation

/-! ## What one operation can do -/

namespace Namespace

theorem defineTest_of_free {ns : Namespace R} {name : String} (h : ns.get? name = none)
    (run : Unit → R) :
    ns.defineTest name run = (.ok (), { ns with
      bindings := ns.bindings.insert name (.test (.plain name ns.modulePath run)) }) := by
  rw [defineTest, contains_eq_false_iff.mpr h]
  rfl

theorem defineTest_of_taken {ns : Namespace R} {name : String} (h : ns.get? name ≠ none)
    (run : Unit → R) : ns.defineTest name run = (.error (.duplicateName name none), ns) := by
  rw [defineTest, contains_eq_true_iff.mpr h]
  rfl

theorem get?_defineTest {ns : Namespace R} {name : String} (h : ns.get? name = none)
    (run : Unit → R) (other : String) :
    (ns.defineTest name run).2.get? other =
      if other = name then some (.test (.plain name ns.modulePath run)) else ns.get? other := by
  rw [defineTest_of_free h]
  exact NameMap.get?_insert ns.bindings name other _

end Namespace

namespace Operation

variable {ns : Namespace R} {operation : Operation R} {e : Expansion R}

/-- An operation injects what its own injection answers names for. -/
theorem Injects.accepted (h : operation.Injects ns e) : ∃ names, (ns.inject e).1 = .ok names := by
  cases h with
  | inject accepted => exact ⟨_, accepted⟩
  | decorate expands accepted =>
    rw [CaseTable.decorate_of_ok expands] at accepted
    exact ⟨_, accepted⟩

theorem Injects.free (h : operation.Injects ns e) : ∀ t ∈ e.tests, ns.get? t.name = none := by
  obtain ⟨names, haccepted⟩ := h.accepted
  exact (Namespace.answer_inject_eq_ok_iff.mp haccepted).1

theorem Injects.separate (h : operation.Injects ns e) : e.Separate := by
  cases h with
  | @inject e made _ accepted => exact made.separate
  | decorate expands accepted => exact separate_of_outcome expands

theorem Injects.apply_eq (h : operation.Injects ns e) : ns.apply operation = ns.injected e := by
  have hinject : ns.inject e = (.ok e.names, ns.injected e) := Namespace.inject_of_free h.free
  cases h with
  | inject accepted => rw [Namespace.apply, hinject]
  | decorate expands accepted =>
    rw [Namespace.apply, CaseTable.decorate_of_ok expands, hinject]

theorem Injects.unique {other : Expansion R} (h : operation.Injects ns e)
    (hother : operation.Injects ns other) : e = other := by
  cases h with
  | inject accepted =>
    cases hother with
    | inject accepted' => rfl
  | decorate expands accepted =>
    cases hother with
    | decorate expands' accepted' => exact Except.ok.inj (expands.symm.trans expands')

theorem Injects.not_releases (h : operation.Injects ns e) (name : String) :
    ¬ operation.Releases name := by
  intro hreleases
  cases h with
  | inject accepted => cases hreleases
  | decorate expands accepted => cases hreleases

/-- **What one operation can do to a namespace**: each way in which it can succeed, and the one in
which it starts nothing, ends nothing and leaves everything as it was. -/
inductive Step (ns : Namespace R) : Operation R → Namespace R → Prop
  | defined (origin : Origin) : Step ns (.defineFunction origin) (ns.defineFunction origin).2
  | tested {name : String} {run : Unit → R} (free : ns.get? name = none) :
      Step ns (.defineTest name run) (ns.defineTest name run).2
  | injected {operation : Operation R} {e : Expansion R} (accepted : operation.Injects ns e) :
      Step ns operation (ns.injected e)
  | removed (name : String) : Step ns (.remove name) (ns.remove name).2
  | failed {operation : Operation R} (binds : ∀ name t, ¬ operation.Binds ns name t)
      (supersedes : ∀ name, ¬ operation.Supersedes ns name) : Step ns operation ns

/-- An operation fails that injects nothing, takes no name away and defines no test of a free
name. -/
theorem Step.of_not_injects (hinjects : ∀ e, ¬ operation.Injects ns e)
    (hreleases : ∀ name, ¬ operation.Releases name)
    (htaken : ∀ name run, operation = .defineTest name run → ns.get? name ≠ none) :
    Step ns operation ns := by
  refine .failed ?_ ?_
  · intro name t h
    cases h with
    | defined accepted =>
      rw [Namespace.defineTest_of_taken (htaken _ _ rfl)] at accepted
      cases accepted
    | injected accepted _ => exact hinjects _ accepted
  · intro name h
    cases h with
    | released h => exact hreleases _ h
    | injected accepted => exact hinjects _ accepted

/-- An operation that can only inject takes a step if it changes nothing without injecting. -/
theorem Step.of_injects_or_same
    (hsame : (∀ e, ¬ operation.Injects ns e) → ns.apply operation = ns)
    (hreleases : ∀ name, ¬ operation.Releases name)
    (htest : ∀ name run, operation ≠ .defineTest name run) :
    Step ns operation (ns.apply operation) := by
  by_cases hinjects : ∃ e, operation.Injects ns e
  · obtain ⟨e, hinjects⟩ := hinjects
    rw [hinjects.apply_eq]
    exact .injected hinjects
  · have hnone : ∀ e, ¬ operation.Injects ns e := fun e h => hinjects ⟨e, h⟩
    rw [hsame hnone]
    exact Step.of_not_injects hnone hreleases fun name run h => absurd h (htest name run)

theorem Step.of_inject (e : Expansion R) (made : e.Made) :
    Step ns (.inject e made) (ns.apply (.inject e made)) := by
  refine Step.of_injects_or_same ?_ (fun _ h => nomatch h) (fun _ _ h => nomatch h)
  intro hinjects
  cases hanswer : (ns.inject e).1 with
  | ok names => exact absurd (.inject hanswer) (hinjects e)
  | error p => rw [Namespace.apply, Namespace.inject_of_answer_error hanswer]

theorem Step.of_decorate {V : Type} [Cell V] (table : CaseTable V) (f : TestFunction V R) :
    Step ns (.decorate table f) (ns.apply (.decorate table f)) := by
  refine Step.of_injects_or_same ?_ (fun _ h => nomatch h) (fun _ _ h => nomatch h)
  intro hinjects
  rw [Namespace.apply]
  cases hexpand : (table.expand f).outcome with
  | error p => rw [CaseTable.decorate_of_error hexpand]
  | ok e =>
    have hdecorate := CaseTable.decorate_of_ok hexpand ns
    rw [hdecorate]
    cases hanswer : (ns.inject e).1 with
    | ok names =>
      have haccepted : (table.decorate ns f).1.outcome = .ok names := by rw [hdecorate, hanswer]
      exact absurd (.decorate hexpand haccepted) (hinjects e)
    | error p => rw [Namespace.inject_of_answer_error hanswer]

theorem Step.of_defineTest (name : String) (run : Unit → R) :
    Step ns (.defineTest name run) (ns.apply (.defineTest name run)) := by
  by_cases hfree : ns.get? name = none
  · exact .tested hfree
  · rw [Namespace.apply, Namespace.defineTest_of_taken hfree]
    refine Step.of_not_injects (fun _ h => nomatch h) (fun _ h => nomatch h) ?_
    intro other run' h
    cases h
    exact hfree

/-- **Every operation takes one of the steps.** -/
theorem step_apply (ns : Namespace R) (operation : Operation R) :
    Step ns operation (ns.apply operation) := by
  cases operation with
  | defineFunction origin => exact .defined origin
  | defineTest name run => exact Step.of_defineTest name run
  | inject e made => exact Step.of_inject e made
  | decorate table f => exact Step.of_decorate table f
  | remove name => exact .removed name

/-! ## What a step starts and ends, case by case -/

theorem releases_defineFunction_iff {origin : Origin} {name : String} :
    (.defineFunction origin : Operation R).Releases name ↔ name = origin.name := by
  constructor
  · intro h
    cases h with
    | redefined origin => rfl
  · rintro rfl
    exact .redefined origin

theorem releases_remove_iff {removed name : String} :
    (.remove removed : Operation R).Releases name ↔ name = removed := by
  constructor
  · intro h
    cases h with
    | removed => rfl
  · rintro rfl
    exact .removed name

theorem not_releases_defineTest {name other : String} {run : Unit → R} :
    ¬ (Operation.defineTest name run).Releases other := fun h => nomatch h

theorem not_injects_defineFunction {origin : Origin} (e : Expansion R) :
    ¬ (Operation.defineFunction origin).Injects ns e := fun h => nomatch h

theorem not_injects_defineTest {name : String} {run : Unit → R} (e : Expansion R) :
    ¬ (Operation.defineTest name run).Injects ns e := fun h => nomatch h

theorem not_injects_remove {name : String} (e : Expansion R) :
    ¬ (Operation.remove name).Injects ns e := fun h => nomatch h

theorem not_binds_defineFunction {origin : Origin} {name : String} {t : TestCase R} :
    ¬ (Operation.defineFunction origin).Binds ns name t := by
  intro h
  cases h with
  | injected accepted _ => cases accepted

theorem not_binds_remove {removed name : String} {t : TestCase R} :
    ¬ (Operation.remove removed).Binds ns name t := by
  intro h
  cases h with
  | injected accepted _ => cases accepted

theorem binds_defineTest_iff {defined name : String} {run : Unit → R}
    (hfree : ns.get? defined = none) {t : TestCase R} :
    (Operation.defineTest defined run).Binds ns name t ↔
      name = defined ∧ t = .plain defined ns.modulePath run := by
  constructor
  · intro h
    cases h with
    | defined accepted => exact ⟨rfl, rfl⟩
    | injected accepted _ => cases accepted
  · rintro ⟨rfl, rfl⟩
    exact .defined (congrArg Prod.fst (Namespace.defineTest_of_free hfree run))

theorem Injects.binds_iff (h : operation.Injects ns e) {name : String} {t : TestCase R} :
    operation.Binds ns name t ↔ e.get? name = some t := by
  constructor
  · intro hbinds
    cases hbinds with
    | defined accepted => cases h
    | injected accepted mem =>
      obtain rfl := h.unique accepted
      exact Expansion.get?_of_mem h.separate.names_nodup mem
  · intro hget
    obtain ⟨hmem, rfl⟩ := Expansion.of_get? hget
    exact .injected h hmem

/-- Apart from injections, a bare function is ended by what takes its name away. -/
theorem supersedes_iff_releases (h : ∀ e, ¬ operation.Injects ns e) {name : String} :
    operation.Supersedes ns name ↔ operation.Releases name := by
  constructor
  · intro hsupersedes
    cases hsupersedes with
    | released hreleases => exact hreleases
    | injected accepted => exact absurd accepted (h _)
  · exact .released

theorem Injects.supersedes_iff (h : operation.Injects ns e) {name : String} :
    operation.Supersedes ns name ↔ name = e.origin.name := by
  constructor
  · intro hsupersedes
    cases hsupersedes with
    | released hreleases => exact absurd hreleases (h.not_releases _)
    | injected accepted => rw [h.unique accepted]
  · rintro rfl
    exact .injected h

/-! ## The two step laws -/

/-- **When a name is bound to a test after a step**: the step binds it, or it was bound before and
the step does not take the name away. -/
theorem get?_apply_test_iff {name : String} {t : TestCase R} :
    (ns.apply operation).get? name = some (.test t) ↔
      operation.Binds ns name t ∨ (ns.get? name = some (.test t) ∧ ¬ operation.Releases name) := by
  have hstep := step_apply ns operation
  generalize ns.apply operation = next at hstep ⊢
  cases hstep with
  | defined origin =>
    rw [Namespace.get?_defineFunction, releases_defineFunction_iff]
    by_cases hname : name = origin.name
    · simp [hname, not_binds_defineFunction]
    · simp [hname, not_binds_defineFunction]
  | @tested defined run hfree =>
    rw [Namespace.get?_defineTest hfree, binds_defineTest_iff hfree]
    by_cases hname : name = defined
    · -- the name was free, so nothing else can have been bound to it
      simp [hname, hfree, eq_comm]
    · simp [hname, not_releases_defineTest]
  | @injected _ e accepted =>
    rw [Namespace.get?_injected accepted.separate, accepted.binds_iff]
    cases hget : e.get? name with
    | some u =>
      obtain ⟨hmem, rfl⟩ := Expansion.of_get? hget
      simp [accepted.free u hmem]
    | none =>
      simp only [accepted.not_releases, not_false_eq_true, and_true, reduceCtorEq, false_or]
      -- the name that is released was bound to a function, so to no test
      split
      · rename_i hbare
        obtain ⟨rfl, origin, horigin⟩ := hbare
        simp [horigin]
      · rfl
  | removed removed =>
    rw [Namespace.get?_remove, releases_remove_iff]
    by_cases hname : name = removed
    · simp [hname, not_binds_remove]
    · simp [hname, not_binds_remove]
  | failed binds supersedes =>
    have hreleases : ¬ operation.Releases name := fun h => supersedes name (.released h)
    simp [binds name t, hreleases]

/-- **When a name is bound to a bare function after a step**: the step defines it, or it was bound
before and the step does not end it. -/
theorem get?_apply_function_iff {name : String} {origin : Origin} :
    (ns.apply operation).get? name = some (.function origin) ↔
      (operation = .defineFunction origin ∧ origin.name = name) ∨
      (ns.get? name = some (.function origin) ∧ ¬ operation.Supersedes ns name) := by
  have hstep := step_apply ns operation
  generalize ns.apply operation = next at hstep ⊢
  cases hstep with
  | defined defined =>
    rw [Namespace.get?_defineFunction, supersedes_iff_releases not_injects_defineFunction,
      releases_defineFunction_iff]
    by_cases hname : name = defined.name
    · simp only [hname, if_true, Option.some.injEq, Binding.function.injEq, not_true_eq_false,
        and_false, or_false, Operation.defineFunction.injEq]
      exact ⟨fun heq => ⟨heq, heq ▸ rfl⟩, And.left⟩
    · simp only [hname, if_false, not_false_eq_true, and_true, Operation.defineFunction.injEq]
      exact ⟨Or.inr, fun h => h.resolve_left fun ⟨heq, hname'⟩ => hname (heq ▸ hname'.symm)⟩
  | @tested defined run hfree =>
    rw [Namespace.get?_defineTest hfree, supersedes_iff_releases not_injects_defineTest]
    by_cases hname : name = defined
    · simp [hname, hfree]
    · simp [hname, not_releases_defineTest]
  | @injected _ e accepted =>
    have hdefine : ¬ (operation = .defineFunction origin ∧ origin.name = name) := by
      rintro ⟨rfl, _⟩
      cases accepted
    rw [Namespace.get?_injected accepted.separate, accepted.supersedes_iff]
    simp only [hdefine, false_or]
    cases hget : e.get? name with
    | some u =>
      obtain ⟨hmem, rfl⟩ := Expansion.of_get? hget
      simp [accepted.free u hmem]
    | none =>
      simp only
      split
      · rename_i hbare
        simp [hbare.1]
      · -- where the name is that of the function, the function was not bare
        rename_i hbare
        refine ⟨fun h => ⟨h, fun hname => hbare ⟨hname, origin, ?_⟩⟩, And.left⟩
        rw [← hname, h]
  | removed removed =>
    rw [Namespace.get?_remove, supersedes_iff_releases not_injects_remove, releases_remove_iff]
    by_cases hname : name = removed
    · simp [hname]
    · simp [hname]
  | failed binds supersedes =>
    have hdefine : ¬ (operation = .defineFunction origin ∧ origin.name = name) := by
      rintro ⟨rfl, rfl⟩
      exact supersedes _ (.released (.redefined origin))
    simp [hdefine, supersedes name]

end Operation

/-! ## From steps to runs -/

namespace Namespace

theorem run_cons (ns : Namespace R) (operation : Operation R) (rest : List (Operation R)) :
    ns.run (operation :: rest) = (ns.apply operation).run rest := rfl

/-- What steps end is ended by no step of a run from `start` on. -/
def Lasts (ends : Namespace R → Operation R → Prop) (ns : Namespace R)
    (operations : List (Operation R)) (start : Nat) : Prop :=
  ∀ j later, start ≤ j → operations[j]? = some later → ¬ ends (ns.before operations j) later

variable {ends : Namespace R → Operation R → Prop} {ns : Namespace R}

theorem lasts_nil (start : Nat) : Lasts ends ns [] start := by
  intro j later _ h
  cases h

theorem lasts_cons_succ_iff {operation : Operation R} {rest : List (Operation R)} {start : Nat} :
    Lasts ends ns (operation :: rest) (start + 1) ↔
      Lasts ends (ns.apply operation) rest start := by
  constructor
  · intro h j later hj hlater
    exact h (j + 1) later (Nat.succ_le_succ hj) hlater
  · intro h j later hj hlater
    cases j with
    | zero => exact absurd hj (Nat.not_succ_le_zero start)
    | succ j => exact h j later (Nat.le_of_succ_le_succ hj) hlater

theorem lasts_cons_zero_iff {operation : Operation R} {rest : List (Operation R)} :
    Lasts ends ns (operation :: rest) 0 ↔
      ¬ ends ns operation ∧ Lasts ends (ns.apply operation) rest 0 := by
  constructor
  · intro h
    refine ⟨h 0 operation (Nat.le_refl 0) rfl, ?_⟩
    exact fun j later _ hlater => h (j + 1) later (Nat.zero_le _) hlater
  · rintro ⟨hfirst, hrest⟩ j later _ hlater
    cases j with
    | zero =>
      obtain rfl := Option.some.inj hlater
      exact hfirst
    | succ j => exact hrest j later (Nat.zero_le j) hlater

/-- **From a step law to a run.** If what holds after a step is what the step starts, or what held
before and is not ended by the step, then what holds after a run is what some step started, or
what held before the run, with no later step ending it. -/
theorem holds_run_iff (holds : Namespace R → Prop)
    (starts ends : Namespace R → Operation R → Prop)
    (hstep : ∀ ns operation, holds (ns.apply operation) ↔
      starts ns operation ∨ (holds ns ∧ ¬ ends ns operation))
    (ns : Namespace R) (operations : List (Operation R)) :
    holds (ns.run operations) ↔
      (∃ i operation, operations[i]? = some operation ∧
        starts (ns.before operations i) operation ∧ Lasts ends ns operations (i + 1)) ∨
      (holds ns ∧ Lasts ends ns operations 0) := by
  induction operations generalizing ns with
  | nil =>
    constructor
    · exact fun h => Or.inr ⟨h, lasts_nil 0⟩
    · rintro (⟨i, operation, h, _⟩ | ⟨h, _⟩)
      · cases h
      · exact h
  | cons first rest ih =>
    rw [run_cons, ih, hstep, lasts_cons_zero_iff]
    constructor
    · rintro (⟨i, operation, hi, hstarts, hlasts⟩ | ⟨hstarts | ⟨hholds, hends⟩, hlasts⟩)
      · exact .inl ⟨i + 1, operation, hi, hstarts, lasts_cons_succ_iff.mpr hlasts⟩
      · exact .inl ⟨0, first, rfl, hstarts, lasts_cons_succ_iff.mpr hlasts⟩
      · exact .inr ⟨hholds, hends, hlasts⟩
    · rintro (⟨i, operation, hi, hstarts, hlasts⟩ | ⟨hholds, hends, hlasts⟩)
      · rw [lasts_cons_succ_iff] at hlasts
        -- the step that started it is the first of the run or one of the rest
        cases i with
        | zero =>
          obtain rfl := Option.some.inj hi
          exact .inr ⟨.inl hstarts, hlasts⟩
        | succ i => exact .inl ⟨i, operation, hi, hstarts, hlasts⟩
      · exact .inr ⟨.inr ⟨hholds, hends⟩, hlasts⟩

end Namespace

namespace Namespace

/-- When a name is bound to a test after a run. -/
theorem get?_run_test_iff {ns : Namespace R} {operations : List (Operation R)} {name : String}
    {t : TestCase R} :
    (ns.run operations).get? name = some (.test t) ↔
      (∃ (i : Nat) (operation : Operation R), operations[i]? = some operation ∧
        operation.Binds (ns.before operations i) name t ∧
        Lasts (fun _ later => later.Releases name) ns operations (i + 1)) ∨
      (ns.get? name = some (.test t) ∧
        Lasts (fun _ later => later.Releases name) ns operations 0) :=
  holds_run_iff (fun ns => ns.get? name = some (.test t))
    (fun ns operation => operation.Binds ns name t) (fun _ operation => operation.Releases name)
    (fun _ _ => Operation.get?_apply_test_iff) ns operations

/-- When a name is bound to a bare function after a run. -/
theorem get?_run_function_iff {ns : Namespace R} {operations : List (Operation R)}
    {name : String} {origin : Origin} :
    (ns.run operations).get? name = some (.function origin) ↔
      (∃ (i : Nat) (operation : Operation R), operations[i]? = some operation ∧
        (operation = .defineFunction origin ∧ origin.name = name) ∧
        Lasts (fun ns later => later.Supersedes ns name) ns operations (i + 1)) ∨
      (ns.get? name = some (.function origin) ∧
        Lasts (fun ns later => later.Supersedes ns name) ns operations 0) :=
  holds_run_iff (fun ns => ns.get? name = some (.function origin))
    (fun _ operation => operation = .defineFunction origin ∧ origin.name = name)
    (fun ns operation => operation.Supersedes ns name)
    (fun _ _ => Operation.get?_apply_function_iff) ns operations

end Namespace

/-- **The history of a namespace says what it holds.** After any run on an empty namespace, a name
is bound to a test just if a step bound that test and no later one took the name away, and to a
bare function just if a step defined it and no later one took the name away or injected its
expansion. A step that does not take a name away leaves the test that is bound to it; so does,
in particular, every step that fails. -/
theorem namespace_history (modulePath : String) (operations : List (Operation R)) (name : String) :
    (∀ t, ((Namespace.empty modulePath).run operations).get? name = some (.test t) ↔
      ∃ (i : Nat) (operation : Operation R), operations[i]? = some operation ∧
        operation.Binds ((Namespace.empty modulePath).before operations i) name t ∧
        ∀ (j : Nat) (later : Operation R), i < j → operations[j]? = some later →
          ¬ later.Releases name) ∧
    (∀ origin, ((Namespace.empty modulePath).run operations).get? name = some (.function origin) ↔
      origin.name = name ∧ ∃ i : Nat, operations[i]? = some (.defineFunction origin) ∧
        ∀ (j : Nat) (later : Operation R), i < j → operations[j]? = some later →
          ¬ later.Supersedes ((Namespace.empty modulePath).before operations j) name) ∧
    ∀ (ns : Namespace R) (operation : Operation R) (t : TestCase R),
      ns.get? name = some (.test t) → ¬ operation.Releases name →
        (ns.apply operation).get? name = some (.test t) := by
  refine ⟨fun t => ?_, fun origin => ?_, fun ns operation t hbound hreleases => ?_⟩
  · -- nothing is bound before the run, so some step of it did
    rw [Namespace.get?_run_test_iff, Namespace.get?_empty]
    constructor
    · rintro (h | ⟨hempty, _⟩)
      · exact h
      · cases hempty
    · exact Or.inl
  · rw [Namespace.get?_run_function_iff, Namespace.get?_empty]
    constructor
    · rintro (⟨i, operation, hi, ⟨rfl, hname⟩, hlasts⟩ | ⟨hempty, _⟩)
      · exact ⟨hname, i, hi, hlasts⟩
      · cases hempty
    · rintro ⟨hname, i, hi, hlasts⟩
      exact .inl ⟨i, _, hi, ⟨rfl, hname⟩, hlasts⟩
  · exact Operation.get?_apply_test_iff.mpr (.inr ⟨hbound, hreleases⟩)

/-- A decoration that is refused drops neither the function nor the test in its way. -/
example :
    ((Namespace.empty "m" : Namespace Bool).run
      [.defineFunction ⟨"f", "m", none⟩, .defineTest "f_a" fun _ => true,
        .decorate (⟨[], ⟨[("a", .positional [])]⟩, .strict⟩ : CaseTable Bool)
          ⟨⟨"f", "m", none⟩, fun _ => true⟩]).names = ["f", "f_a"] := rfl

end Casewise
