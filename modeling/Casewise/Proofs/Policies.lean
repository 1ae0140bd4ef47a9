import Mathlib.Logic.Basic
import Casewise.Proofs.Violations

/-!
# Casewise.Proofs.Policies -- what leniency forgives, and that it forgives nothing else

The policy is asked in one place: where a positional row has more or fewer values than there are
parameters. The strict policy refuses such a row; the lenient one cuts the longer side and raises
a warning. All other checks are the same, so two runs over the same data sets that differ in the
policy can be told from each other only by rows of the wrong length.

On success this is an equivalence: what expands strictly is what expands leniently without a
warning of a cut, and into the same tests (`expandable_strict_iff`, `warnings_expandWith_of_ok`).
On failure the two runs may stop at different data sets. `FailsOn` says at which one a run stops,
by what the sets up to there expand to, and `violation_strict_cases` is the reason that the strict
run stops first if the two do not agree: a violation of the strict policy is one of the lenient
policy, or a row of the wrong length.

Values beyond the parameters are never looked at by the lenient policy, so it makes no difference
to cut them off beforehand (`outcome_expandWith_shorten`).
-/

namespace Casewise

open Identifier

variable {V : Type}

/-! ## Rows of the right length -/

/-- **A row whose length is right**: a positional one has one value for each parameter. -/
def Row.Matches (parameters : List String) : Row V → Prop
  | .positional values => values.length = parameters.length
  | .named _ => True

theorem Row.fits_strict_iff {parameters : List String} {row : Row V} :
    row.Fits .strict parameters ↔ row.Fits .lenient parameters ∧ row.Matches parameters := by
  cases row with
  | positional values => simp [Fits, Matches]
  | named values => simp [Fits, Matches]

/-- A function expands strictly where it expands leniently and no row has the wrong length. -/
theorem expandable_strict_iff {parameters : List String} {sets : DataSets V} {function : String} :
    Expandable .strict parameters sets function ↔
      Expandable .lenient parameters sets function ∧
        ∀ set ∈ sets.entries, set.2.Matches parameters := by
  refine ⟨?_, ?_⟩
  · intro h
    have hfit : ∀ set ∈ sets.entries,
        set.2.Fits .lenient parameters ∧ set.2.Matches parameters :=
      fun set hset => Row.fits_strict_iff.mp (h.rows_fit set hset)
    refine ⟨{ h with rows_fit := fun set hset => (hfit set hset).1 }, ?_⟩
    exact fun set hset => (hfit set hset).2
  · intro ⟨h, hmatches⟩
    refine { h with rows_fit := fun set hset => ?_ }
    exact Row.fits_strict_iff.mpr ⟨h.rows_fit set hset, hmatches set hset⟩

/-! ## Warnings on the way to a success -/

/-- The warning that binding a row raises, if it does: a row of the wrong length is cut under the
lenient policy. -/
def Row.warning? (policy : ArityPolicy) (function dataSet : String) (parameters : List String) :
    Row V → Option Warning
  | .positional values =>
    if policy = .lenient ∧ values.length ≠ parameters.length then
      some (.truncated function dataSet parameters.length values.length)
    else none
  | .named _ => none

theorem warnings_bindRow (policy : ArityPolicy) (function dataSet : String)
    (parameters : List String) (row : Row V) :
    (bindRow policy function dataSet parameters row).warnings =
      (row.warning? policy function dataSet parameters).toList := by
  cases row with
  | positional values =>
    by_cases hlength : values.length = parameters.length
    · simp [bindRow, Row.warning?, hlength, Report.done]
    · cases policy with
      | strict => simp [bindRow, Row.warning?, hlength, Report.fail]
      | lenient => simp [bindRow, Row.warning?, hlength]
  | named values =>
    show (Report.andThen (.ofExcept (checkNamed function dataSet parameters values.names))
      fun _ => Report.done (⟨values.entries⟩ : Arguments V)).warnings = []
    cases checkNamed function dataSet parameters values.names <;> rfl

variable {R : Type} [Cell V] {policy : ArityPolicy} {parameters : List String}
  {sets : DataSets V} {f : TestFunction V R}

/-- A data set on which the loop goes on warns of its row, and then the sets behind it warn. -/
theorem warnings_expandRows_cons {seen : List String} {set : String × Row V}
    (hname : IsFragment set.1) (hfits : set.2.Fits policy parameters)
    (hseen : generatedName f.name set.1 ∉ seen) (rest : List (String × Row V)) :
    (expandRows policy parameters f seen (set :: rest)).warnings =
      (set.2.warning? policy f.name set.1 parameters).toList ++
        (expandRows policy parameters f (generatedName f.name set.1 :: seen) rest).warnings := by
  obtain ⟨dataSet, row⟩ := set
  have hchecked : checkName .dataSet dataSet = .ok () := checkName_eq_ok_iff.mpr hname
  have hbound : (bindRow policy f.name dataSet parameters row).outcome =
      .ok (row.arguments parameters) := outcome_bindRow_eq_ok_iff.mpr ⟨hfits, rfl⟩
  rw [expandRows, Report.warnings_bind_of_ok hchecked, Report.warnings_ofExcept,
    List.nil_append, Report.warnings_bind_of_ok hbound, warnings_bindRow]
  show _ ++ (if generatedName f.name dataSet ∈ seen then _ else _ :
    Report (List (TestCase R))).warnings = _
  rw [if_neg hseen]
  exact congrArg _ (Report.warnings_bind_of_silent (fun _ => Report.warnings_pure _) _)

/-- The loop over the data sets warns of each row in turn. -/
theorem warnings_expandRows_of_ok {seen : List String} {entries : List (String × Row V)}
    {tests : List (TestCase R)}
    (h : (expandRows policy parameters f seen entries).outcome = .ok tests) :
    (expandRows policy parameters f seen entries).warnings =
      entries.filterMap fun set => set.2.warning? policy f.name set.1 parameters := by
  induction entries generalizing seen tests with
  | nil => rfl
  | cons set rest ih =>
    obtain ⟨hname, hfits, hseen, later, hlater, _⟩ := outcome_expandRows_cons_eq_ok_iff.mp h
    rw [warnings_expandRows_cons hname hfits hseen, ih hlater, List.filterMap_cons]
    cases set.2.warning? policy f.name set.1 parameters <;> rfl

/-- **The names of a function and of its parameters are accepted.** -/
def NamesAccepted (function : String) (parameters : List String) : Prop :=
  IsIdentifier function ∧ (∀ p ∈ parameters, IsIdentifier p) ∧ parameters.Nodup

omit [Cell V] in
theorem Expandable.namesAccepted {function : String}
    (h : Expandable policy parameters sets function) : NamesAccepted function parameters :=
  ⟨h.function_valid, h.parameters_valid, h.parameters_nodup⟩

theorem NamesAccepted.checkParameters_eq {function : String}
    (h : NamesAccepted function parameters) : checkParameters [] parameters = .ok () :=
  checkParameters_eq_ok_iff.mpr ⟨h.2.1, h.2.2, fun _ _ => List.not_mem_nil⟩

/-- Once the names are accepted there is the warning that there are no data sets, if there are
none, and then what the loop warns of. -/
theorem warnings_expandWith_of_accepted (h : NamesAccepted f.name parameters) :
    (expandWith policy parameters sets f).warnings =
      (if sets.isEmpty then [.noDataSets f.name] else []) ++
        (expandRows policy parameters f [] sets.entries).warnings := by
  have hchecked : checkName .function f.name = .ok () := checkName_eq_ok_iff.mpr h.1
  have hloop : (expandRows policy parameters f [] sets.entries >>= fun tests =>
      (pure ⟨f.origin, tests⟩ : Report (Expansion R))).warnings =
      (expandRows policy parameters f [] sets.entries).warnings :=
    Report.warnings_bind_of_silent (fun _ => Report.warnings_pure _) _
  unfold expandWith
  rw [Report.warnings_bind_of_ok hchecked, Report.warnings_ofExcept, List.nil_append,
    Report.warnings_bind_of_ok h.checkParameters_eq, Report.warnings_ofExcept, List.nil_append,
    ← hloop]
  cases sets.isEmpty <;> rfl

/-- **What a success warns of**: that there are no data sets, or each row that was cut. -/
theorem warnings_expandWith_of_ok {e : Expansion R}
    (h : (expandWith policy parameters sets f).outcome = .ok e) :
    (expandWith policy parameters sets f).warnings =
      (if sets.isEmpty then [.noDataSets f.name] else []) ++
        sets.entries.filterMap fun set => set.2.warning? policy f.name set.1 parameters := by
  obtain ⟨hexpandable, _⟩ := outcome_expandWith_eq_ok_iff.mp h
  obtain ⟨_, _, tests, htests, _⟩ := outcome_expandWith_eq_ok_iff_loop.mp h
  rw [warnings_expandWith_of_accepted hexpandable.namesAccepted, warnings_expandRows_of_ok htests]

/-- A lenient success has cut nothing just if no row has the wrong length. -/
theorem no_truncation_iff {e : Expansion R}
    (h : (expandWith .lenient parameters sets f).outcome = .ok e) :
    (∀ function dataSet expected actual, .truncated function dataSet expected actual ∉
      (expandWith .lenient parameters sets f).warnings) ↔
      ∀ set ∈ sets.entries, set.2.Matches parameters := by
  have hwarns : ∀ function dataSet expected actual,
      .truncated function dataSet expected actual ∈
        (expandWith .lenient parameters sets f).warnings ↔
      ∃ set ∈ sets.entries, set.2.warning? .lenient f.name set.1 parameters =
        some (.truncated function dataSet expected actual) := by
    intro function dataSet expected actual
    rw [warnings_expandWith_of_ok h]
    cases sets.isEmpty <;> simp [-Prod.exists]
  refine ⟨?_, ?_⟩
  · intro hnone set hset
    obtain ⟨dataSet, row⟩ := set
    cases row with
    | named values => trivial
    | positional values =>
      by_contra hlength
      refine hnone f.name dataSet parameters.length values.length ((hwarns _ _ _ _).mpr ?_)
      exact ⟨_, hset, if_pos ⟨rfl, hlength⟩⟩
  · intro hmatches function dataSet expected actual hmem
    obtain ⟨⟨name, row⟩, hset, hwarning⟩ := (hwarns _ _ _ _).mp hmem
    have hrow := hmatches _ hset
    cases row with
    | named values => cases hwarning
    | positional values =>
      have hnone : ¬ (ArityPolicy.lenient = .lenient ∧ values.length ≠ parameters.length) :=
        fun h => h.2 hrow
      rw [Row.warning?, if_neg hnone] at hwarning
      cases hwarning

/-- **What expands strictly is what expands leniently without a cut**, and into the same. -/
theorem outcome_strict_eq_ok_iff {e : Expansion R} :
    (expandWith .strict parameters sets f).outcome = .ok e ↔
      (expandWith .lenient parameters sets f).outcome = .ok e ∧
        ∀ function dataSet expected actual, .truncated function dataSet expected actual ∉
          (expandWith .lenient parameters sets f).warnings := by
  have hstrict : (expandWith .strict parameters sets f).outcome = .ok e ↔
      (expandWith .lenient parameters sets f).outcome = .ok e ∧
        ∀ set ∈ sets.entries, set.2.Matches parameters := by
    rw [outcome_expandWith_eq_ok_iff, outcome_expandWith_eq_ok_iff, expandable_strict_iff]
    exact and_right_comm
  rw [hstrict]
  exact and_congr_right fun h => (no_truncation_iff h).symm

/-! ## The data set at which a run stops -/

/-- **Expansion fails on data set number `i`**: the sets before it expand, and together with it
they end in the problem. -/
def FailsOn (policy : ArityPolicy) (parameters : List String) (sets : DataSets V)
    (f : TestFunction V R) (i : Nat) (p : Problem) : Prop :=
  i < sets.size ∧
    (∃ e, (expandWith policy parameters ⟨sets.entries.take i⟩ f).outcome = .ok e) ∧
    (expandWith policy parameters ⟨sets.entries.take (i + 1)⟩ f).outcome = .error p

variable {p : Problem}

theorem failsOn_of_violation {before after : List (String × Row V)} {set : String × Row V}
    (split : sets.entries = before ++ set :: after)
    (expandable : Expandable policy parameters ⟨before⟩ f.name)
    (violation : SetViolation policy f.name parameters (before.map Prod.fst) set p) :
    FailsOn policy parameters sets f before.length p := by
  have hbefore : sets.entries.take before.length = before := by
    rw [split, List.take_left]
  have hwith : sets.entries.take (before.length + 1) = before ++ [set] := by
    rw [split, List.take_length_add_append]
    rfl
  refine ⟨?_, ?_, ?_⟩
  · rw [DataSets.size, split, List.length_append, List.length_cons]
    omega
  · rw [hbefore]
    exact ⟨_, outcome_expandWith_eq_ok_iff.mpr ⟨expandable, rfl⟩⟩
  · rw [hwith, outcome_expandWith_eq_error_iff]
    exact .dataSet rfl expandable violation

namespace FailsOn

/-- Where a run has stopped, it stays stopped: more sets make no difference. -/
theorem outcome_take {i n : Nat} (h : FailsOn policy parameters sets f i p) (hlater : i < n) :
    (expandWith policy parameters ⟨sets.entries.take n⟩ f).outcome = .error p := by
  have hsplit : sets.entries.take n =
      sets.entries.take (i + 1) ++ (sets.entries.take n).drop (i + 1) := by
    have hmin : min (i + 1) n = i + 1 := by omega
    have hfirst : (sets.entries.take n).take (i + 1) = sets.entries.take (i + 1) := by
      rw [List.take_take, hmin]
    rw [← hfirst, List.take_append_drop]
  rw [hsplit]
  exact outcome_expandWith_append h.2.2 _

theorem outcome_eq (h : FailsOn policy parameters sets f i p) :
    (expandWith policy parameters sets f).outcome = .error p := by
  have hall := h.outcome_take h.1
  rw [DataSets.size, List.take_length] at hall
  exact hall

end FailsOn

/-- A run whose function and parameters are accepted fails on one of the sets, if it fails. -/
theorem exists_failsOn (haccepted : NamesAccepted f.name parameters)
    (h : (expandWith policy parameters sets f).outcome = .error p) :
    ∃ i, FailsOn policy parameters sets f i p := by
  obtain ⟨hfunction, hvalid, hnodup⟩ := haccepted
  rcases outcome_expandWith_eq_error_iff.mp h with reason | ⟨_, split, _, _, violation⟩ |
    ⟨split, expandable, violation⟩
  · exact absurd hfunction reason.not_admits
  · -- every parameter is an identifier, and none is declared twice
    exfalso
    rw [split, List.nodup_append] at hnodup
    cases violation with
    | rejected reason =>
      refine reason.not_admits (hvalid _ ?_)
      rw [split]
      exact List.mem_append_right _ List.mem_cons_self
    | repeated _ declared => exact hnodup.2.2 _ declared _ List.mem_cons_self rfl
  · exact ⟨_, failsOn_of_violation split expandable violation⟩

/-! ## What the strict policy adds -/

/-- **A violation of the strict policy** is one of the lenient policy, or it is a row of the wrong
length behind sets over which the function expands. -/
theorem violation_strict_cases (h : FirstViolation .strict parameters sets f.name p) :
    FirstViolation .lenient parameters sets f.name p ∨
      ∃ i dataSet values, sets.entries[i]? = some (dataSet, .positional values) ∧
        p = .arityMismatch f.name dataSet parameters.length values.length ∧
        FailsOn .strict parameters sets f i p := by
  cases h with
  | function reason => exact .inl (.function reason)
  | parameter hfunction split hvalid hnodup violation =>
    exact .inl (.parameter hfunction split hvalid hnodup violation)
  | @dataSet before after set _ split expandable violation =>
    have hlenient : Expandable .lenient parameters ⟨before⟩ f.name :=
      (expandable_strict_iff.mp expandable).1
    have hfails := failsOn_of_violation split expandable violation
    cases violation with
    | rejected reason => exact .inl (.dataSet split hlenient (.rejected reason))
    | repeated hname hfits hoccurred =>
      have hfits' := (Row.fits_strict_iff.mp hfits).1
      exact .inl (.dataSet split hlenient (.repeated hname hfits' hoccurred))
    | row hname hrow =>
      obtain ⟨dataSet, row⟩ := set
      cases hrow with
      | unknown hdeclared hleast =>
        exact .inl (.dataSet split hlenient (.row hname (.unknown hdeclared hleast)))
      | rejected hundeclared hleast hreason =>
        exact .inl (.dataSet split hlenient (.row hname (.rejected hundeclared hleast hreason)))
      | @arity values _ hdiffer =>
        refine .inr ⟨before.length, dataSet, values, ?_, rfl, hfails⟩
        rw [split, List.getElem?_append_right (Nat.le_refl _), Nat.sub_self]
        rfl

/-- No row is too long or too short for the lenient policy. -/
theorem outcome_lenient_ne_arityMismatch {function dataSet : String} {expected actual : Nat} :
    (expandWith .lenient parameters sets f).outcome ≠
      .error (.arityMismatch function dataSet expected actual) := by
  intro h
  cases outcome_expandWith_eq_error_iff.mp h with
  | parameter _ _ _ _ violation => cases violation
  | @dataSet before after set _ _ _ violation =>
    obtain ⟨name, row⟩ := set
    cases violation with
    | row _ hrow =>
      cases hrow with
      | arity hstrict _ => cases hstrict

/-- **What the lenient policy fails on, the strict one fails on too**, unless it has stopped at a
row of the wrong length before it, or at this very set. -/
theorem outcome_strict_of_lenient (h : (expandWith .lenient parameters sets f).outcome = .error p) :
    (expandWith .strict parameters sets f).outcome = .error p ∨
      ∃ i j dataSet values, i ≤ j ∧ FailsOn .lenient parameters sets f j p ∧
        sets.entries[i]? = some (dataSet, .positional values) ∧
        FailsOn .strict parameters sets f i
          (.arityMismatch f.name dataSet parameters.length values.length) := by
  cases hstrict : (expandWith .strict parameters sets f).outcome with
  | ok e =>
    have hlenient := (outcome_strict_eq_ok_iff.mp hstrict).1
    rw [h] at hlenient
    cases hlenient
  | error q =>
    rcases violation_strict_cases (outcome_expandWith_eq_error_iff.mp hstrict) with
      hsame | ⟨i, dataSet, values, hset, rfl, hfails⟩
    · have hq := outcome_expandWith_eq_error_iff.mpr hsame
      rw [h] at hq
      exact .inl hq.symm
    · refine .inr ?_
      obtain ⟨e, hbefore⟩ := hfails.2.1
      obtain ⟨hexpandable, _⟩ := outcome_expandWith_eq_ok_iff.mp hbefore
      obtain ⟨j, hj⟩ := exists_failsOn hexpandable.namesAccepted h
      refine ⟨i, j, dataSet, values, ?_, hj, hset, hfails⟩
      -- the lenient run gets as far as the strict one
      by_contra hlt
      have herror := hj.outcome_take (Nat.lt_of_not_le hlt)
      rw [(outcome_strict_eq_ok_iff.mp hbefore).1] at herror
      cases herror

/-! ## Values beyond the parameters -/

/-- A row without the values beyond the first `n`, if it is positional. -/
def Row.shorten (n : Nat) : Row V → Row V
  | .positional values => .positional (values.take (min values.length n))
  | .named values => .named values

/-- Data sets without the values beyond the first `n` of any positional row. -/
def DataSets.shorten (n : Nat) (sets : DataSets V) : DataSets V :=
  ⟨sets.entries.map fun set => (set.1, set.2.shorten n)⟩

theorem zip_take_min {α β : Type} (xs : List α) (ys : List β) :
    xs.zip (ys.take (min ys.length xs.length)) = xs.zip ys := by
  induction xs generalizing ys with
  | nil => rfl
  | cons x xs ih =>
    cases ys with
    | nil => rfl
    | cons y ys =>
      rw [List.length_cons, List.length_cons, Nat.succ_min_succ, List.take_succ_cons,
        List.zip_cons_cons, List.zip_cons_cons, ih]

omit [Cell V] in
theorem outcome_bindRow_shorten (function dataSet : String) (parameters : List String)
    (row : Row V) :
    (bindRow .lenient function dataSet parameters (row.shorten parameters.length)).outcome =
      (bindRow .lenient function dataSet parameters row).outcome := by
  cases row with
  | named values => rfl
  | positional values =>
    have hbound : ∀ values : List V,
        (bindRow .lenient function dataSet parameters (.positional values)).outcome =
          .ok ⟨parameters.zip values⟩ := by
      intro values
      exact outcome_bindRow_eq_ok_iff.mpr ⟨nofun, rfl⟩
    rw [Row.shorten, hbound, hbound, zip_take_min]

theorem outcome_expandRows_shorten (parameters : List String) (f : TestFunction V R)
    (seen : List String) (entries : List (String × Row V)) :
    (expandRows .lenient parameters f seen
      (entries.map fun set => (set.1, set.2.shorten parameters.length))).outcome =
      (expandRows .lenient parameters f seen entries).outcome := by
  induction entries generalizing seen with
  | nil => rfl
  | cons set rest ih =>
    obtain ⟨dataSet, row⟩ := set
    rw [List.map_cons, expandRows, expandRows]
    refine Report.outcome_bind_congr rfl fun _ => ?_
    refine Report.outcome_bind_congr (outcome_bindRow_shorten _ _ _ _) fun arguments => ?_
    simp only [apply_ite Report.outcome]
    split
    · rfl
    · exact Report.outcome_bind_congr (ih _) fun _ => rfl

/-- **Values beyond the parameters make no difference to a lenient outcome.** -/
theorem outcome_expandWith_shorten (parameters : List String) (sets : DataSets V)
    (f : TestFunction V R) :
    (expandWith .lenient parameters (sets.shorten parameters.length) f).outcome =
      (expandWith .lenient parameters sets f).outcome := by
  have hloop := outcome_expandRows_shorten parameters f [] sets.entries
  unfold expandWith
  refine Report.outcome_bind_congr rfl fun _ => ?_
  refine Report.outcome_bind_congr rfl fun _ => ?_
  simp only [apply_ite Report.outcome, Report.outcome_warn_bind, ite_self]
  exact Report.outcome_bind_congr hloop fun _ => rfl

/-! ## The two policies -/

/-- **The lenient policy refines the strict one and differs from it only by cutting.** Success of
the strict policy is success of the lenient one without a cut, with the same tests. The lenient
policy never reports a row of the wrong length, and it reports whatever else the strict one
reports. What it reports itself the strict policy reports too, or else a row of the wrong length in
the same data set or one before. And it takes no notice of values beyond the parameters. -/
theorem lenient_refines_strict (parameters : List String) (sets : DataSets V)
    (f : TestFunction V R) :
    (∀ e, (expandWith .strict parameters sets f).outcome = .ok e ↔
      (expandWith .lenient parameters sets f).outcome = .ok e ∧
        ∀ function dataSet expected actual, .truncated function dataSet expected actual ∉
          (expandWith .lenient parameters sets f).warnings) ∧
    (∀ function dataSet expected actual, (expandWith .lenient parameters sets f).outcome ≠
      .error (.arityMismatch function dataSet expected actual)) ∧
    (∀ p, (expandWith .strict parameters sets f).outcome = .error p →
      (∀ function dataSet expected actual,
        p ≠ .arityMismatch function dataSet expected actual) →
      (expandWith .lenient parameters sets f).outcome = .error p) ∧
    (∀ p, (expandWith .lenient parameters sets f).outcome = .error p →
      (expandWith .strict parameters sets f).outcome = .error p ∨
      ∃ i j dataSet values, i ≤ j ∧ FailsOn .lenient parameters sets f j p ∧
        sets.entries[i]? = some (dataSet, .positional values) ∧
        FailsOn .strict parameters sets f i
          (.arityMismatch f.name dataSet parameters.length values.length) ∧
        (expandWith .strict parameters sets f).outcome =
          .error (.arityMismatch f.name dataSet parameters.length values.length)) ∧
    (expandWith .lenient parameters (sets.shorten parameters.length) f).outcome =
      (expandWith .lenient parameters sets f).outcome := by
  refine ⟨fun _ => outcome_strict_eq_ok_iff, fun _ _ _ _ => outcome_lenient_ne_arityMismatch,
    ?_, ?_, outcome_expandWith_shorten parameters sets f⟩
  · intro p h hother
    rcases violation_strict_cases (outcome_expandWith_eq_error_iff.mp h) with
      hsame | ⟨_, _, _, _, rfl, _⟩
    · exact outcome_expandWith_eq_error_iff.mpr hsame
    · exact absurd rfl (hother _ _ _ _)
  · intro p h
    rcases outcome_strict_of_lenient h with hsame | ⟨i, j, dataSet, values, hle, hj, hset, hi⟩
    · exact .inl hsame
    · exact .inr ⟨i, j, dataSet, values, hle, hj, hset, hi, hi.outcome_eq⟩

/-- The strict run stops at the row that is too long, the lenient one cuts it and stops behind. -/
example :
    let sets : DataSets Int64 :=
      ⟨[("a", .positional [1, 2]), ("b", .named ⟨[("y", 3)], by decide⟩)]⟩
    let f : TestFunction Int64 Unit := ⟨⟨"f", "", none⟩, fun _ => ()⟩
    (expandWith .strict ["x"] sets f).outcome = .error (.arityMismatch "f" "a" 1 2) ∧
      (expandWith .lenient ["x"] sets f).outcome = .error (.unknownParameter "f" "b" "y") :=
  ⟨rfl, rfl⟩

end Casewise
