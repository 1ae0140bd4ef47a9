import Casewise.Proofs.Policies
import Casewise.Proofs.Outcome

/-!
# Casewise.Proofs.Warnings -- the exact log of warnings

A warning is raised while a row is bound, and the checks behind it can still refuse the same data
set: its generated name may have occurred before. So the log is a matter of how far a run gets.
A data set that is reached is warned of as soon as its own name is accepted, whatever becomes of
it afterwards, and a data set behind the one that fails is not warned of at all.

One round of the loop adds the warning of its data set and goes on or stops there
(`warnings_expandRows_cons`, `warnings_expandRows_cons_of_stopped`), and from that the log of a
whole run is read off the data sets that it reaches (`exists_reachedSets`). A suite is the same
once more with functions in the place of data sets: injecting a function never warns, so each
function that is reached adds the log of its own expansion (`warnings_addFunction`), and the one
that fails is the last.
-/

namespace Casewise

open Identifier

variable {V R : Type}

/-! ## The warning of one data set -/

/-- **What a data set is warned of when it is reached**: of the cut of its row, unless its name is
rejected before its row is looked at. -/
def cutWarning? (policy : ArityPolicy) (function : String) (parameters : List String)
    (set : String × Row V) : Option Warning :=
  if IsFragment set.1 then set.2.warning? policy function set.1 parameters else none

variable {policy : ArityPolicy} {function : String} {parameters : List String}

theorem cutWarning?_of_isFragment {set : String × Row V} (h : IsFragment set.1) :
    cutWarning? policy function parameters set =
      set.2.warning? policy function set.1 parameters := if_pos h

/-- **Exactly the rows that the lenient policy cuts are warned of.** -/
theorem cutWarning?_eq_some_iff {set : String × Row V} {w : Warning} :
    cutWarning? policy function parameters set = some w ↔
      policy = .lenient ∧ IsFragment set.1 ∧ ∃ values, set.2 = .positional values ∧
        values.length ≠ parameters.length ∧
        w = .truncated function set.1 parameters.length values.length := by
  obtain ⟨dataSet, row⟩ := set
  unfold cutWarning?
  cases row with
  | named values => simp [Row.warning?]
  | positional values =>
    simp only [Row.warning?, Option.ite_none_right_eq_some, Option.some.injEq, Row.positional.injEq,
      exists_eq_left', eq_comm (a := w)]
    constructor
    · rintro ⟨hname, ⟨hlenient, hlength⟩, hw⟩
      exact ⟨hlenient, hname, hlength, hw⟩
    · rintro ⟨hlenient, hname, hlength, hw⟩
      exact ⟨hname, ⟨hlenient, hlength⟩, hw⟩

/-! ## The log of the loop over the data sets -/

variable [Cell V] {f : TestFunction V R}

/-- A data set at which the loop stops is the last to be warned of. -/
theorem warnings_expandRows_cons_of_stopped {seen : List String} {set : String × Row V}
    (hstop : ¬ (IsFragment set.1 ∧ set.2.Fits policy parameters ∧
      generatedName f.name set.1 ∉ seen)) (rest : List (String × Row V)) :
    (expandRows policy parameters f seen (set :: rest)).warnings =
      (cutWarning? policy f.name parameters set).toList := by
  obtain ⟨dataSet, row⟩ := set
  unfold expandRows cutWarning?
  cases hchecked : checkName .dataSet dataSet with
  | error p =>
    have hname : ¬ IsFragment dataSet := by
      intro hvalid
      have haccepted : checkName .dataSet dataSet = .ok () := checkName_eq_ok_iff.mpr hvalid
      rw [haccepted] at hchecked
      cases hchecked
    rw [Report.warnings_bind_of_error rfl, if_neg hname]
    rfl
  | ok _ =>
    have hname : IsFragment dataSet := checkName_eq_ok_iff.mp hchecked
    rw [Report.warnings_bind_of_ok rfl, Report.warnings_ofExcept, List.nil_append, if_pos hname,
      ← warnings_bindRow]
    cases hbound : (bindRow policy f.name dataSet parameters row).outcome with
    | error p => exact Report.warnings_bind_of_error hbound _
    | ok arguments =>
      -- the name is accepted and the row fits, so it is the generated name that stops the loop
      obtain ⟨hfits, _⟩ := outcome_bindRow_eq_ok_iff.mp hbound
      have hseen : generatedName f.name dataSet ∈ seen := by
        by_contra hnew
        exact hstop ⟨hname, hfits, hnew⟩
      rw [Report.warnings_bind_of_ok hbound]
      show _ ++ (if generatedName f.name dataSet ∈ seen then _ else _ :
        Report (List (TestCase R))).warnings = _
      rw [if_pos hseen]
      exact List.append_nil _

/-- **The log of a loop that stops** is that of the data sets up to the one at which it stops. -/
theorem warnings_expandRows_of_stopped {seen : List String} {before : List (String × Row V)}
    {set : String × Row V} {tests : List (TestCase R)}
    (hbefore : (expandRows policy parameters f seen before).outcome = .ok tests)
    (hset : ∀ tests, (expandRows policy parameters f seen (before ++ [set])).outcome ≠ .ok tests)
    (after : List (String × Row V)) :
    (expandRows policy parameters f seen (before ++ set :: after)).warnings =
      (before ++ [set]).filterMap (cutWarning? policy f.name parameters) := by
  induction before generalizing seen tests with
  | nil =>
    have hstop : ¬ (IsFragment set.1 ∧ set.2.Fits policy parameters ∧
        generatedName f.name set.1 ∉ seen) := by
      intro ⟨hname, hfits, hseen⟩
      exact hset _ (outcome_expandRows_cons_eq_ok_iff.mpr ⟨hname, hfits, hseen, [], rfl, rfl⟩)
    rw [List.nil_append, warnings_expandRows_cons_of_stopped hstop, List.nil_append,
      List.filterMap_cons]
    cases cutWarning? policy f.name parameters set <;> rfl
  | cons first before ih =>
    obtain ⟨hname, hfits, hseen, later, hlater, _⟩ := outcome_expandRows_cons_eq_ok_iff.mp hbefore
    have hrest : ∀ tests, (expandRows policy parameters f (generatedName f.name first.1 :: seen)
        (before ++ [set])).outcome ≠ .ok tests := by
      intro tests htests
      exact hset _ (outcome_expandRows_cons_eq_ok_iff.mpr
        ⟨hname, hfits, hseen, tests, htests, rfl⟩)
    rw [List.cons_append, warnings_expandRows_cons hname hfits hseen, ih hlater hrest,
      List.cons_append, List.filterMap_cons, cutWarning?_of_isFragment hname]
    cases first.2.warning? policy f.name first.1 parameters <;> rfl

/-! ## The log of an expansion -/

variable {sets : DataSets V}

/-- **The data sets that an expansion reaches**: all of them if it succeeds, and otherwise those up
to and including the one that it fails on. -/
inductive ReachedSets (policy : ArityPolicy) (parameters : List String) (sets : DataSets V)
    (f : TestFunction V R) : List (String × Row V) → Prop
  | all {e : Expansion R} (expanded : (expandWith policy parameters sets f).outcome = .ok e) :
    ReachedSets policy parameters sets f sets.entries
  | upTo {i : Nat} {p : Problem} (failed : FailsOn policy parameters sets f i p) :
    ReachedSets policy parameters sets f (sets.entries.take (i + 1))

/-- A function whose name or whose parameters are rejected is not warned of. -/
theorem warnings_expandWith_of_rejected (h : ¬ NamesAccepted f.name parameters) :
    (expandWith policy parameters sets f).warnings = [] := by
  unfold expandWith
  cases hfunction : checkName .function f.name with
  | error p => exact Report.warnings_bind_of_error rfl _
  | ok _ =>
    rw [Report.warnings_bind_of_ok rfl, Report.warnings_ofExcept, List.nil_append]
    cases hparameters : checkParameters [] parameters with
    | error p => exact Report.warnings_bind_of_error rfl _
    | ok _ =>
      obtain ⟨hvalid, hnodup, _⟩ := checkParameters_eq_ok_iff.mp hparameters
      exact absurd ⟨checkName_eq_ok_iff.mp hfunction, hvalid, hnodup⟩ h

/-- A failure on a data set is a failure of the loop there. -/
theorem FailsOn.loop {i : Nat} {p : Problem} (h : FailsOn policy parameters sets f i p) :
    (∃ tests, (expandRows policy parameters f [] (sets.entries.take i)).outcome = .ok tests) ∧
      ∀ tests, (expandRows policy parameters f [] (sets.entries.take (i + 1))).outcome ≠
        .ok tests := by
  obtain ⟨_, ⟨e, hbefore⟩, hfailed⟩ := h
  obtain ⟨hfunction, hparameters, tests, htests, _⟩ := outcome_expandWith_eq_ok_iff_loop.mp hbefore
  refine ⟨⟨tests, htests⟩, ?_⟩
  intro tests htests
  have hok := outcome_expandWith_eq_ok_iff_loop.mpr ⟨hfunction, hparameters, tests, htests, rfl⟩
  rw [hok] at hfailed
  cases hfailed

/-- **The loop warns of the data sets that the expansion reaches**, and of nothing else. -/
theorem exists_reachedSets (policy : ArityPolicy) (sets : DataSets V)
    (haccepted : NamesAccepted f.name parameters) :
    ∃ reached, ReachedSets policy parameters sets f reached ∧
      (expandRows policy parameters f [] sets.entries).warnings =
        reached.filterMap (cutWarning? policy f.name parameters) := by
  cases houtcome : (expandWith policy parameters sets f).outcome with
  | ok e =>
    obtain ⟨_, _, tests, htests, _⟩ := outcome_expandWith_eq_ok_iff_loop.mp houtcome
    refine ⟨_, .all houtcome, ?_⟩
    rw [warnings_expandRows_of_ok htests]
    apply List.filterMap_congr
    intro set hset
    exact (cutWarning?_of_isFragment ((outcome_expandRows_eq_ok_iff.mp htests).1 set hset).1).symm
  | error p =>
    obtain ⟨i, hfails⟩ := exists_failsOn haccepted houtcome
    obtain ⟨⟨tests, hbefore⟩, hset⟩ := hfails.loop
    have hlt : i < sets.entries.length := hfails.1
    have hentries : sets.entries =
        sets.entries.take i ++ sets.entries[i] :: sets.entries.drop (i + 1) := by
      rw [← List.drop_eq_getElem_cons hlt, List.take_append_drop]
    have htake : sets.entries.take (i + 1) = sets.entries.take i ++ [sets.entries[i]] :=
      List.take_succ_eq_append_getElem hlt
    refine ⟨_, .upTo hfails, ?_⟩
    rw [htake] at hset ⊢
    have hlog := warnings_expandRows_of_stopped hbefore hset (sets.entries.drop (i + 1))
    rw [← hentries] at hlog
    exact hlog

/-- **The exact log of an expansion.** -/
structure ExpansionLog (policy : ArityPolicy) (parameters : List String) (sets : DataSets V)
    (f : TestFunction V R) (log : List Warning) : Prop where
  rejected : ¬ NamesAccepted f.name parameters → log = []
  noDataSets : NamesAccepted f.name parameters → sets.entries = [] → log = [.noDataSets f.name]
  cuts : NamesAccepted f.name parameters → sets.entries ≠ [] →
    ∃ reached, ReachedSets policy parameters sets f reached ∧
      log = reached.filterMap (cutWarning? policy f.name parameters)
  strict : policy = .strict → ∀ function dataSet expected actual,
    .truncated function dataSet expected actual ∉ log

/-- **What an expansion warns of is its exact log.** -/
theorem expansionLog_warnings (policy : ArityPolicy) (parameters : List String)
    (sets : DataSets V) (f : TestFunction V R) :
    ExpansionLog policy parameters sets f (expandWith policy parameters sets f).warnings where
  rejected := warnings_expandWith_of_rejected
  noDataSets := by
    intro haccepted hnone
    rw [warnings_expandWith_of_accepted haccepted, DataSets.isEmpty, hnone]
    rfl
  cuts := by
    intro haccepted hsome
    obtain ⟨reached, hreached, hlog⟩ := exists_reachedSets policy sets haccepted
    have hnonempty : sets.isEmpty = false := by
      rw [DataSets.isEmpty, List.isEmpty_eq_false_iff]
      exact hsome
    refine ⟨reached, hreached, ?_⟩
    rw [warnings_expandWith_of_accepted haccepted, hnonempty, hlog]
    rfl
  strict := by
    intro hstrict function dataSet expected actual hmem
    by_cases haccepted : NamesAccepted f.name parameters
    · obtain ⟨reached, _, hlog⟩ := exists_reachedSets policy sets haccepted
      rw [warnings_expandWith_of_accepted haccepted, hlog] at hmem
      rcases List.mem_append.mp hmem with hfirst | hcut
      · cases hempty : sets.isEmpty <;> simp [hempty] at hfirst
      · obtain ⟨set, _, hset⟩ := List.mem_filterMap.mp hcut
        obtain ⟨hlenient, _⟩ := cutWarning?_eq_some_iff.mp hset
        rw [hstrict] at hlenient
        cases hlenient
    · rw [warnings_expandWith_of_rejected haccepted] at hmem
      cases hmem

/-! ## The log of a build -/

namespace Suite

variable {module : String} {ns mid : Namespace Unit} {g : FunctionEntry V}
  {before functions : List (FunctionEntry V)}

/-- **A function fails to be added**: it does not expand, or a name that it generates is taken. -/
inductive FailsToAdd (module : String) (ns : Namespace Unit) (g : FunctionEntry V) :
    Problem → Prop
  | expansion {p : Problem} (failed : (g.expand module).outcome = .error p) :
    FailsToAdd module ns g p
  | injection {e : Expansion Unit} {p : Problem} (expanded : (g.expand module).outcome = .ok e)
    (failed : ((claimed module ns g).inject e).1 = .error p) : FailsToAdd module ns g p

theorem outcome_addFunction_eq_error_iff {p : Problem} :
    (addFunction module ns g).outcome = .error p ↔ FailsToAdd module ns g p := by
  constructor
  · intro h
    cases hexpand : (g.expand module).outcome with
    | error q =>
      rw [outcome_addFunction_of_error hexpand] at h
      obtain rfl := Except.error.inj h
      exact .expansion hexpand
    | ok e =>
      cases hinject : ((claimed module ns g).inject e).1 with
      | error q =>
        rw [outcome_addFunction_of_taken hexpand hinject] at h
        obtain rfl := Except.error.inj h
        exact .injection hexpand hinject
      | ok names =>
        exfalso
        obtain ⟨hfree, -⟩ := Namespace.answer_inject_eq_ok_iff.mp hinject
        have hunclaimed : ∀ t ∈ e.tests, ns.get? t.name = none := by
          intro t ht
          rw [← get?_claimed_of_mem hexpand ht ns]
          exact hfree t ht
        rw [outcome_addFunction_eq_ok_iff.mpr ⟨e, hexpand, hunclaimed, rfl⟩] at h
        cases h
  · rintro (hexpand | ⟨hexpand, hinject⟩)
    · exact outcome_addFunction_of_error hexpand ns
    · exact outcome_addFunction_of_taken hexpand hinject

/-- **Adding a function warns of what its expansion warns of.** -/
theorem warnings_addFunction (module : String) (ns : Namespace Unit) (g : FunctionEntry V) :
    (addFunction module ns g).warnings = (g.expand module).warnings := by
  have hadd : (addFunction module ns g).warnings =
      (g.table.decorate (claimed module ns g) (g.testFunction module)).1.warnings :=
    Report.warnings_bind_of_silent (fun _ => rfl) _
  rw [hadd, CaseTable.warnings_decorate]
  rfl

/-- Functions that are all added leave their logs in order, before that of the rest. -/
theorem warnings_addFunctions_append
    (h : (addFunctions module ns before).outcome = .ok mid) (after : List (FunctionEntry V)) :
    (addFunctions module ns (before ++ after)).warnings =
      (before.flatMap fun g => (g.expand module).warnings) ++
        (addFunctions module mid after).warnings := by
  induction before generalizing ns with
  | nil =>
    obtain rfl := Except.ok.inj h
    rfl
  | cons g before ih =>
    obtain ⟨next, hadd, hrest⟩ := outcome_addFunctions_cons_eq_ok_iff.mp h
    rw [List.cons_append, addFunctions, Report.warnings_bind_of_ok hadd, ih hrest,
      warnings_addFunction, List.flatMap_cons, List.append_assoc]

/-- Where functions cannot all be added, there is a first that cannot. -/
theorem exists_failsToAdd {p : Problem}
    (h : (addFunctions module ns functions).outcome = .error p) :
    ∃ before g after mid, functions = before ++ g :: after ∧
      (addFunctions module ns before).outcome = .ok mid ∧ FailsToAdd module mid g p := by
  induction functions generalizing ns with
  | nil => cases h
  | cons g rest ih =>
    rcases Report.outcome_bind_eq_error_iff.mp h with hadd | ⟨next, hadd, hrest⟩
    · exact ⟨[], g, rest, ns, rfl, rfl, outcome_addFunction_eq_error_iff.mp hadd⟩
    · obtain ⟨before, last, after, mid, rfl, hbefore, hlast⟩ := ih hrest
      refine ⟨g :: before, last, after, mid, rfl, ?_, hlast⟩
      exact outcome_addFunctions_cons_eq_ok_iff.mpr ⟨next, hadd, hbefore⟩

/-- **The functions that a build reaches**: all of them if it succeeds, and otherwise those up to
and including the first that fails, behind functions that build by themselves. -/
inductive Reaches (s : Suite V) : List (FunctionEntry V) → Prop
  | all {ns : Namespace Unit} (built : s.build.outcome = .ok ns) : Reaches s s.functions
  | upTo {before after : List (FunctionEntry V)} {g : FunctionEntry V} {ns : Namespace Unit}
    {p : Problem} (split : s.functions = before ++ g :: after)
    (built : (build ⟨s.module, before⟩).outcome = .ok ns)
    (failed : FailsToAdd s.module ns g p) (reported : s.build.outcome = .error p) :
    Reaches s (before ++ [g])

/-- **A build warns of what the functions that it reaches warn of**, one after the other. -/
theorem exists_reaches (s : Suite V) :
    ∃ reached, s.Reaches reached ∧
      s.build.warnings = reached.flatMap fun g => (g.expand s.module).warnings := by
  cases houtcome : s.build.outcome with
  | ok ns =>
    refine ⟨s.functions, .all houtcome, ?_⟩
    have hlog := warnings_addFunctions_append houtcome []
    rw [List.append_nil] at hlog
    exact hlog.trans (List.append_nil _)
  | error p =>
    obtain ⟨before, g, after, mid, hsplit, hbuilt, hfailed⟩ := exists_failsToAdd houtcome
    refine ⟨before ++ [g], .upTo hsplit hbuilt hfailed houtcome, ?_⟩
    have hlast : (addFunctions s.module mid (g :: after)).warnings =
        (g.expand s.module).warnings := by
      have hadd := outcome_addFunction_eq_error_iff.mpr hfailed
      rw [addFunctions, Report.warnings_bind_of_error hadd, warnings_addFunction]
    rw [build, hsplit, warnings_addFunctions_append hbuilt, hlast, List.flatMap_append,
      List.flatMap_singleton]

end Suite

/-- **The exact log of warnings.** An expansion warns of nothing if a name is rejected, of missing
data sets if there are none, and otherwise of each row that the lenient policy cuts, up to and
including the data set that the expansion fails on. A suite warns of what its functions warn of,
up to and including the first that fails. -/
theorem warning_log_exact :
    (∀ {V R : Type} [Cell V] (policy : ArityPolicy) (parameters : List String) (sets : DataSets V)
      (f : TestFunction V R),
      ExpansionLog policy parameters sets f (expandWith policy parameters sets f).warnings) ∧
    ∀ {V : Type} [Cell V] (s : Suite V), ∃ reached, s.Reaches reached ∧
      s.build.warnings = reached.flatMap fun g =>
        (expandWith g.policy g.parameters g.dataSets (g.testFunction s.module)).warnings :=
  ⟨expansionLog_warnings, Suite.exists_reaches⟩

/-- The row that is too long is warned of, and so is the one that is too short although its name
has occurred; the set behind it is never reached. In the suite the first of two functions of one
name leaves its log and so does the second, whose test collides; the third leaves none. -/
example :
    let sets : DataSets Int64 := ⟨[("a", .positional [1, 2]), ("b", .positional [3]),
      ("a", .positional []), ("c", .positional [])]⟩
    let f : TestFunction Int64 Unit := ⟨⟨"f", "", none⟩, fun _ => ()⟩
    let cut : FunctionEntry Int64 := ⟨"g", none, [], ⟨[("a", .positional [1])]⟩, true⟩
    let s : Suite Int64 := ⟨"m", [cut, cut, ⟨"h", none, [], ⟨[]⟩, false⟩]⟩
    (expandWith .lenient ["x"] sets f).warnings =
        [.truncated "f" "a" 1 2, .truncated "f" "a" 1 0] ∧
      s.build.warnings = [.truncated "g" "a" 0 1, .truncated "g" "a" 0 1] :=
  ⟨rfl, rfl⟩

end Casewise
