import Mathlib.Logic.Basic
import Mathlib.Tactic.ByContra
import Casewise.Proofs.Expansion

/-!
# Casewise.Proofs.Violations -- which problem is reported of all that there are

Much can be wrong at once with a function, its parameters and its data sets, and one problem is
reported. `FirstViolation` says which: the name of the function comes first, then the parameters
from left to right, then the data sets in order, and of one set its name, its row and its place
among the others. What stands before the violation is required to be flawless, in the words of
`Expandable`, so the relation names one problem at most and no second pass over the input is
hidden in it.

Three loops look for violations: over the parameters, over the names of a named row, and over the
data sets. All of them stop at the first element that violates something and go on past any other,
with a list of what they have seen. `Checks` is this shape, and `Checks.eq_error_iff` the one
induction: such a loop ends in a problem just if the list splits at an element that violates
something, behind elements on which the loop does not fail. A named row is checked in the
order of its names, so the first name that is wrong is the least one (`least_iff_of_ascending`).

That what comes behind a violation plays no part is why a failing list of data sets fails in the
same way when more sets are added (`outcome_expandWith_append`).
-/

namespace Casewise

open Identifier

/-! ## Loops that stop at the first violation -/

section Loops

variable {α β σ : Type} {loop : σ → List α → Except Problem β} {next : σ → α → σ}
  {violates : σ → α → Problem → Prop}

/-- **A loop that checks one element after the other**, with a state that it takes on from each:
it stops at an element that violates something and goes on past any other. -/
structure Checks (loop : σ → List α → Except Problem β) (next : σ → α → σ)
    (violates : σ → α → Problem → Prop) : Prop where
  nil : ∀ s p, loop s [] ≠ .error p
  stop : ∀ {s x xs p}, violates s x p → loop s (x :: xs) = .error p
  go : ∀ {s x xs p}, (∀ q, ¬ violates s x q) →
    (loop s (x :: xs) = .error p ↔ loop (next s x) xs = .error p)

namespace Checks

/-- **Where a loop stops.** The elements before do not stop it, and the one at which it stops
violates something in the state that they have led to. -/
theorem eq_error_iff (h : Checks loop next violates) {s : σ} {xs : List α} {p : Problem} :
    loop s xs = .error p ↔
      ∃ before x after, xs = before ++ x :: after ∧ (∀ q, loop s before ≠ .error q) ∧
        violates (before.foldl next s) x p := by
  induction xs generalizing s with
  | nil => simp [h.nil]
  | cons x xs ih =>
    by_cases hx : ∃ q, violates s x q
    · -- the loop stops here, so nothing can stand before the place where it stops
      obtain ⟨q, hq⟩ := hx
      constructor
      · intro herror
        have hsame : (Except.error q : Except Problem β) = .error p := (h.stop hq).symm.trans herror
        obtain rfl := Except.error.inj hsame
        exact ⟨[], x, xs, rfl, h.nil s, hq⟩
      · rintro ⟨before, y, after, hsplit, hbefore, hy⟩
        cases before with
        | nil =>
          obtain ⟨rfl, rfl⟩ := List.cons.inj hsplit
          exact h.stop hy
        | cons z before =>
          obtain ⟨rfl, _⟩ := List.cons.inj hsplit
          exact absurd (h.stop hq) (hbefore q)
    · have hclear : ∀ q, ¬ violates s x q := not_exists.mp hx
      rw [h.go hclear, ih]
      constructor
      · rintro ⟨before, y, after, rfl, hbefore, hy⟩
        refine ⟨x :: before, y, after, rfl, ?_, hy⟩
        intro q hq
        exact hbefore q ((h.go hclear).mp hq)
      · rintro ⟨before, y, after, hsplit, hbefore, hy⟩
        cases before with
        | nil =>
          obtain ⟨rfl, rfl⟩ := List.cons.inj hsplit
          exact absurd hy (hclear p)
        | cons z before =>
          obtain ⟨rfl, rfl⟩ := List.cons.inj hsplit
          refine ⟨before, y, after, rfl, ?_, hy⟩
          intro q hq
          exact hbefore q ((h.go hclear).mpr hq)

end Checks

end Loops

/-- What is no failure is a success. -/
theorem forall_ne_error_iff {β : Type} {outcome : Except Problem β} :
    (∀ p, outcome ≠ .error p) ↔ ∃ b, outcome = .ok b := by
  cases outcome with
  | ok b => simp
  | error p => simp

/-! ## Names -/

/-- A name is rejected in its role, and for the reason that its role has. -/
theorem checkName_eq_error_iff {role : Role} {name : String} {p : Problem} :
    checkName role name = .error p ↔
      ∃ fault, role.Rejects name fault ∧ p = .invalidIdentifier name role fault := by
  simp only [checkName, ← Role.fault?_eq_some_iff]
  cases role.fault? name with
  | none => simp
  | some fault => simp [eq_comm]

/-! ## Parameters -/

/-- **What a parameter violates** behind others: it is no identifier, or it is one and has been
declared before. -/
inductive ParameterViolation (before : List String) (name : String) : Problem → Prop
  | rejected {fault : Fault} (reason : Role.parameter.Rejects name fault) :
    ParameterViolation before name (.invalidIdentifier name .parameter fault)
  | repeated (valid : IsIdentifier name) (declared : name ∈ before) :
    ParameterViolation before name (.invalidIdentifier name .parameter .repeated)

theorem ParameterViolation.congr {before others : List String} {name : String} {p : Problem}
    (h : ∀ q, q ∈ before ↔ q ∈ others) :
    ParameterViolation before name p ↔ ParameterViolation others name p := by
  constructor
  · rintro (reason | ⟨valid, declared⟩)
    · exact .rejected reason
    · exact .repeated valid ((h _).mp declared)
  · rintro (reason | ⟨valid, declared⟩)
    · exact .rejected reason
    · exact .repeated valid ((h _).mpr declared)

/-- The loop over the parameters. -/
theorem checks_parameters :
    Checks checkParameters (fun seen name => name :: seen) ParameterViolation where
  nil _ _ h := nomatch h
  stop := by
    rintro seen name rest p (reason | ⟨valid, declared⟩)
    · have hname := checkName_eq_error_iff.mpr ⟨_, reason, rfl⟩
      rw [checkParameters, hname]
      rfl
    · have hname : checkName .parameter name = .ok () := checkName_eq_ok_iff.mpr valid
      rw [checkParameters, hname]
      exact if_pos declared
  go := by
    intro seen name rest p hclear
    have hvalid : Role.parameter.Admits name := by
      by_contra hnot
      obtain ⟨fault, reason⟩ := Role.exists_rejects hnot
      exact hclear _ (.rejected reason)
    have hnew : name ∉ seen := fun declared => hclear _ (.repeated hvalid declared)
    have hname := checkName_eq_ok_iff.mpr hvalid
    have hcons : checkParameters seen (name :: rest) = checkParameters (name :: seen) rest := by
      rw [checkParameters, hname]
      exact if_neg hnew
    rw [hcons]

/-- **The first violation among parameters.** -/
theorem checkParameters_eq_error_iff {parameters : List String} {p : Problem} :
    checkParameters [] parameters = .error p ↔
      ∃ before name after, parameters = before ++ name :: after ∧
        (∀ q ∈ before, IsIdentifier q) ∧ before.Nodup ∧ ParameterViolation before name p := by
  rw [checks_parameters.eq_error_iff]
  have hseen : ∀ before : List String,
      before.foldl (fun seen name => name :: seen) [] = before.reverse := by
    intro before
    rw [List.foldl_flip_cons_eq_append', List.append_nil]
  have haccepted : ∀ before, (∀ q, checkParameters [] before ≠ .error q) ↔
      (∀ q ∈ before, IsIdentifier q) ∧ before.Nodup := by
    intro before
    rw [forall_ne_error_iff]
    constructor
    · rintro ⟨_, h⟩
      obtain ⟨hvalid, hnodup, _⟩ := checkParameters_eq_ok_iff.mp h
      exact ⟨hvalid, hnodup⟩
    · rintro ⟨hvalid, hnodup⟩
      exact ⟨(), checkParameters_eq_ok_iff.mpr ⟨hvalid, hnodup, fun _ _ => List.not_mem_nil⟩⟩
  simp only [hseen, haccepted, ParameterViolation.congr fun _ => List.mem_reverse, and_assoc]

/-! ## Rows -/

/-- **The least of the names that have a property**, in the order of names. -/
def Least (property : String → Prop) (names : List String) (name : String) : Prop :=
  name ∈ names ∧ property name ∧
    ∀ other ∈ names, property other → other ≠ name → Precedes name other

/-- In ascending names the least one with a property is the first one. -/
theorem least_iff_of_ascending {names : List String} (hascending : names.Pairwise (· < ·))
    {property : String → Prop} {name : String} :
    Least property names name ↔
      ∃ before after, names = before ++ name :: after ∧ (∀ other ∈ before, ¬ property other) ∧
        property name := by
  constructor
  · rintro ⟨hmem, hname, hleast⟩
    obtain ⟨before, after, rfl⟩ := List.append_of_mem hmem
    refine ⟨before, after, rfl, ?_, hname⟩
    intro other hother hproperty
    obtain ⟨_, _, hcross⟩ := List.pairwise_append.mp hascending
    have hbelow : other < name := hcross other hother name List.mem_cons_self
    have hne : other ≠ name := fun heq => String.lt_irrefl name (heq ▸ hbelow)
    have habove := hleast other (List.mem_append_left _ hother) hproperty hne
    exact String.lt_irrefl name (String.lt_trans (precedes_iff.mp habove) hbelow)
  · rintro ⟨before, after, rfl, hbefore, hname⟩
    refine ⟨List.mem_append_right _ List.mem_cons_self, hname, ?_⟩
    intro other hother hproperty hne
    obtain ⟨_, htail, _⟩ := List.pairwise_append.mp hascending
    rcases List.mem_append.mp hother with hother | hother
    · exact absurd hproperty (hbefore other hother)
    · rcases List.mem_cons.mp hother with rfl | hother
      · exact absurd rfl hne
      · exact precedes_iff.mpr ((List.pairwise_cons.mp htail).1 other hother)

/-- **What a name in a named row violates**: no parameter has it, or, where no parameters are
declared, none could have it. -/
inductive NameViolation (function dataSet : String) (parameters : List String) (name : String) :
    Problem → Prop
  | unknown (declared : parameters ≠ []) (notMem : name ∉ parameters) :
    NameViolation function dataSet parameters name (.unknownParameter function dataSet name)
  | rejected {fault : Fault} (undeclared : parameters = [])
    (reason : Role.parameter.Rejects name fault) :
    NameViolation function dataSet parameters name (.invalidIdentifier name .parameter fault)

section Rows

variable {V : Type} {policy : ArityPolicy} {function dataSet : String} {parameters : List String}
  {p : Problem}

theorem exists_nameViolation_iff {name : String} :
    (∃ p, NameViolation function dataSet parameters name p) ↔ ¬ MayName parameters name := by
  constructor
  · rintro ⟨p, ⟨hdeclared, hnot⟩ | ⟨hundeclared, hreason⟩⟩
    · exact fun hmay => hnot ((mayName_of_ne_nil hdeclared).mp hmay)
    · subst hundeclared
      exact fun hmay => hreason.not_admits (mayName_nil.mp hmay)
  · intro hnot
    by_cases hundeclared : parameters = []
    · subst hundeclared
      have hbroken : ¬ Role.parameter.Admits name := fun hvalid => hnot (mayName_nil.mpr hvalid)
      obtain ⟨fault, hreason⟩ := Role.exists_rejects hbroken
      exact ⟨_, .rejected rfl hreason⟩
    · rw [mayName_of_ne_nil hundeclared] at hnot
      exact ⟨_, .unknown hundeclared hnot⟩

/-- The loop over the names of a row, which remembers nothing. -/
theorem checks_named (function dataSet : String) (parameters : List String) :
    Checks (fun _ : Unit => checkNamed function dataSet parameters) (fun seen _ => seen)
      (fun _ => NameViolation function dataSet parameters) where
  nil _ _ h := nomatch h
  stop := by
    rintro _ name rest p (⟨hdeclared, hnot⟩ | ⟨rfl, hreason⟩)
    · have hempty : parameters.isEmpty = false := by
        cases parameters with
        | nil => exact absurd rfl hdeclared
        | cons _ _ => rfl
      rw [checkNamed, hempty, if_neg Bool.false_ne_true, if_neg hnot]
      rfl
    · have hname := checkName_eq_error_iff.mpr ⟨_, hreason, rfl⟩
      rw [checkNamed, List.isEmpty_nil, if_pos rfl, hname]
      rfl
  go := by
    intro _ name rest p hclear
    have hmay : MayName parameters name := by
      by_contra hnot
      obtain ⟨q, hq⟩ := exists_nameViolation_iff.mpr hnot
      exact hclear q hq
    have hcons : checkNamed function dataSet parameters (name :: rest) =
        checkNamed function dataSet parameters rest := by
      cases parameters with
      | nil =>
        have hname : checkName .parameter name = .ok () :=
          checkName_eq_ok_iff.mpr (mayName_nil.mp hmay)
        rw [checkNamed, List.isEmpty_nil, if_pos rfl, hname]
        rfl
      | cons q qs =>
        have hmem : name ∈ q :: qs := (mayName_of_ne_nil (List.cons_ne_nil q qs)).mp hmay
        rw [checkNamed, List.isEmpty_cons, if_neg Bool.false_ne_true, if_pos hmem]
        rfl
    rw [hcons]

/-- **What a row violates**: under the strict policy it has too few or too many values; or the
least of its names that no parameter has, or that none could have, is to blame. -/
inductive RowViolation (policy : ArityPolicy) (function dataSet : String)
    (parameters : List String) : Row V → Problem → Prop
  | arity {values : List V} (strict : policy = .strict)
    (differ : parameters.length ≠ values.length) :
    RowViolation policy function dataSet parameters (.positional values)
      (.arityMismatch function dataSet parameters.length values.length)
  | unknown {values : NameMap V} {name : String} (declared : parameters ≠ [])
    (least : Least (fun name => name ∉ parameters) values.names name) :
    RowViolation policy function dataSet parameters (.named values)
      (.unknownParameter function dataSet name)
  | rejected {values : NameMap V} {name : String} {fault : Fault} (undeclared : parameters = [])
    (least : Least (fun name => ¬ IsIdentifier name) values.names name)
    (reason : Role.parameter.Rejects name fault) :
    RowViolation policy function dataSet parameters (.named values)
      (.invalidIdentifier name .parameter fault)

/-- The first violation among the names of a row is that of the least name that may not stand
there. -/
theorem checkNamed_eq_error_iff {values : NameMap V} :
    checkNamed function dataSet parameters values.names = .error p ↔
      ∃ name, Least (fun name => ¬ MayName parameters name) values.names name ∧
        NameViolation function dataSet parameters name p := by
  have haccepted : ∀ names, (∀ q, checkNamed function dataSet parameters names ≠ .error q) ↔
      ∀ name ∈ names, MayName parameters name := by
    intro names
    rw [forall_ne_error_iff]
    exact ⟨fun ⟨_, h⟩ => checkNamed_eq_ok_iff.mp h, fun h => ⟨(), checkNamed_eq_ok_iff.mpr h⟩⟩
  rw [(checks_named function dataSet parameters).eq_error_iff (s := ())]
  simp only [haccepted, least_iff_of_ascending values.names_pairwise, not_not]
  constructor
  · rintro ⟨before, name, after, hsplit, hbefore, hname⟩
    have hnot : ¬ MayName parameters name := exists_nameViolation_iff.mp ⟨p, hname⟩
    exact ⟨name, ⟨before, after, hsplit, hbefore, hnot⟩, hname⟩
  · rintro ⟨name, ⟨before, after, hsplit, hbefore, _⟩, hname⟩
    exact ⟨before, name, after, hsplit, hbefore, hname⟩

/-- **A row is refused exactly for what it violates.** -/
theorem outcome_bindRow_eq_error_iff {row : Row V} :
    (bindRow policy function dataSet parameters row).outcome = .error p ↔
      RowViolation policy function dataSet parameters row p := by
  cases row with
  | positional values =>
    constructor
    · intro h
      simp only [bindRow] at h
      split at h
      · cases h
      · rename_i hlength
        cases policy with
        | strict =>
          obtain rfl := Except.error.inj h
          exact .arity rfl (Ne.symm hlength)
        | lenient => cases h
    · rintro ⟨rfl, hdiffer⟩
      simp [bindRow, Ne.symm hdiffer]
  | named values =>
    have hnamed : (bindRow policy function dataSet parameters (.named values)).outcome =
        .error p ↔ checkNamed function dataSet parameters values.names = .error p := by
      simp [bindRow, Report.outcome_bind_eq_error_iff]
    rw [hnamed, checkNamed_eq_error_iff]
    by_cases hdeclared : parameters = []
    · subst hdeclared
      simp only [mayName_nil]
      constructor
      · rintro ⟨name, hleast, ⟨hne, _⟩ | ⟨_, hreason⟩⟩
        · exact absurd rfl hne
        · exact .rejected rfl hleast hreason
      · rintro (_ | ⟨hne, _⟩ | ⟨_, hleast, hreason⟩)
        · exact absurd rfl hne
        · exact ⟨_, hleast, .rejected rfl hreason⟩
    · simp only [mayName_of_ne_nil hdeclared]
      constructor
      · rintro ⟨name, hleast, ⟨_, _⟩ | ⟨hnil, _⟩⟩
        · exact .unknown hdeclared hleast
        · exact absurd hnil hdeclared
      · rintro (_ | ⟨_, hleast⟩ | ⟨hnil, _, _⟩)
        · exact ⟨_, hleast, .unknown hdeclared hleast.2.1⟩
        · exact absurd hnil hdeclared

/-- A row that does not fit violates something. -/
theorem Row.exists_violation {row : Row V} (h : ¬ row.Fits policy parameters)
    (function dataSet : String) :
    ∃ p, RowViolation policy function dataSet parameters row p := by
  cases houtcome : (bindRow policy function dataSet parameters row).outcome with
  | ok arguments => exact absurd (outcome_bindRow_eq_ok_iff.mp houtcome).1 h
  | error p => exact ⟨p, outcome_bindRow_eq_error_iff.mp houtcome⟩

end Rows

/-! ## Data sets -/

/-- **What a data set violates** behind sets of other names: its name is no fragment, or its row
violates something, or its name has occurred, and so has the name of its test. -/
inductive SetViolation {V : Type} (policy : ArityPolicy) (function : String)
    (parameters : List String) (before : List String) : String × Row V → Problem → Prop
  | rejected {set : String × Row V} {fault : Fault} (reason : Role.dataSet.Rejects set.1 fault) :
    SetViolation policy function parameters before set
      (.invalidIdentifier set.1 .dataSet fault)
  | row {set : String × Row V} {p : Problem} (valid : IsFragment set.1)
    (violation : RowViolation policy function set.1 parameters set.2 p) :
    SetViolation policy function parameters before set p
  | repeated {set : String × Row V} (valid : IsFragment set.1)
    (fits : set.2.Fits policy parameters) (occurred : set.1 ∈ before) :
    SetViolation policy function parameters before set
      (.duplicateName (function ++ "_" ++ set.1) (some set.1))

section Sets

variable {V R : Type} {policy : ArityPolicy} {function : String} {parameters : List String}
  {p : Problem}

theorem SetViolation.congr {before others : List String} {set : String × Row V}
    (h : ∀ name, name ∈ before ↔ name ∈ others) :
    SetViolation policy function parameters before set p ↔
      SetViolation policy function parameters others set p := by
  constructor
  · rintro (reason | ⟨valid, violation⟩ | ⟨valid, fits, occurred⟩)
    · exact .rejected reason
    · exact .row valid violation
    · exact .repeated valid fits ((h _).mp occurred)
  · rintro (reason | ⟨valid, violation⟩ | ⟨valid, fits, occurred⟩)
    · exact .rejected reason
    · exact .row valid violation
    · exact .repeated valid fits ((h _).mpr occurred)

/-- A set that violates nothing has a name, a row and a place that are in order. -/
theorem SetViolation.of_forall_not {before : List String} {set : String × Row V}
    (h : ∀ p, ¬ SetViolation policy function parameters before set p) :
    IsFragment set.1 ∧ set.2.Fits policy parameters ∧ set.1 ∉ before := by
  have hvalid : Role.dataSet.Admits set.1 := by
    by_contra hnot
    obtain ⟨fault, reason⟩ := Role.exists_rejects hnot
    exact h _ (.rejected reason)
  have hfits : set.2.Fits policy parameters := by
    by_contra hnot
    obtain ⟨p, violation⟩ := Row.exists_violation hnot function set.1
    exact h p (.row hvalid violation)
  exact ⟨hvalid, hfits, fun occurred => h _ (.repeated hvalid hfits occurred)⟩

variable [Cell V]

/-- The generated names that have been seen are as many signs of the data sets before. -/
theorem generatedName_mem_map_iff {function dataSet : String} {before : List String} :
    generatedName function dataSet ∈ before.map (generatedName function) ↔ dataSet ∈ before := by
  simp [generatedName_right_inj]

/-- The loop over the data sets, which has seen the names that those before have generated. -/
theorem checks_expandRows (policy : ArityPolicy) (parameters : List String)
    (f : TestFunction V R) :
    Checks (fun before sets => (expandRows policy parameters f
        (before.map (generatedName f.name)) sets).outcome)
      (fun before set => set.1 :: before) (SetViolation policy f.name parameters) where
  nil _ _ h := nomatch h
  stop := by
    rintro before ⟨dataSet, row⟩ rest p (reason | ⟨valid, violation⟩ | ⟨valid, fits, occurred⟩)
    · refine Report.outcome_bind_of_error ?_ _
      exact checkName_eq_error_iff.mpr ⟨_, reason, rfl⟩
    · have hname : checkName .dataSet dataSet = .ok () := checkName_eq_ok_iff.mpr valid
      refine (Report.outcome_bind_of_ok hname _).trans ?_
      exact Report.outcome_bind_of_error (outcome_bindRow_eq_error_iff.mpr violation) _
    · have hname : checkName .dataSet dataSet = .ok () := checkName_eq_ok_iff.mpr valid
      refine (Report.outcome_bind_of_ok hname _).trans ?_
      refine (Report.outcome_bind_of_ok (outcome_bindRow_eq_ok_iff.mpr ⟨fits, rfl⟩) _).trans ?_
      exact congrArg Report.outcome (if_pos (generatedName_mem_map_iff.mpr occurred))
  go := by
    rintro before ⟨dataSet, row⟩ rest p hclear
    obtain ⟨hvalid, hfits, hnew⟩ := SetViolation.of_forall_not hclear
    have hname : checkName .dataSet dataSet = .ok () := checkName_eq_ok_iff.mpr hvalid
    have hunseen : generatedName f.name dataSet ∉ before.map (generatedName f.name) :=
      fun hseen => hnew (generatedName_mem_map_iff.mp hseen)
    have hcons : (expandRows policy parameters f (before.map (generatedName f.name))
        ((dataSet, row) :: rest)).outcome =
        (expandRows policy parameters f ((dataSet :: before).map (generatedName f.name)) rest >>=
          fun tests => pure (f.testOf parameters (dataSet, row) :: tests)).outcome := by
      refine (Report.outcome_bind_of_ok hname _).trans ?_
      refine (Report.outcome_bind_of_ok (outcome_bindRow_eq_ok_iff.mpr ⟨hfits, rfl⟩) _).trans ?_
      exact congrArg Report.outcome (if_neg hunseen)
    rw [hcons, Report.outcome_bind_eq_error_iff]
    simp

/-- **The first violation among data sets.** -/
theorem outcome_expandRows_eq_error_iff {f : TestFunction V R} {sets : List (String × Row V)} :
    (expandRows policy parameters f [] sets).outcome = .error p ↔
      ∃ before set after, sets = before ++ set :: after ∧
        (∀ other ∈ before, IsFragment other.1 ∧ other.2.Fits policy parameters) ∧
        (before.map Prod.fst).Nodup ∧
        SetViolation policy f.name parameters (before.map Prod.fst) set p := by
  have hloop : (expandRows policy parameters f [] sets).outcome = .error p ↔ _ :=
    (checks_expandRows policy parameters f).eq_error_iff (s := [])
  have hseen : ∀ before : List (String × Row V),
      before.foldl (fun names set => set.1 :: names) [] = (before.map Prod.fst).reverse := by
    intro before
    rw [List.foldl_flip_cons_eq_append, List.append_nil]
  have haccepted : ∀ before : List (String × Row V),
      (∀ q, (expandRows policy parameters f [] before).outcome ≠ .error q) ↔
        (∀ other ∈ before, IsFragment other.1 ∧ other.2.Fits policy parameters) ∧
          (before.map Prod.fst).Nodup := by
    intro before
    rw [forall_ne_error_iff]
    simp [outcome_expandRows_eq_ok_iff]
  simp only [hseen, List.map_nil, haccepted, and_assoc,
    SetViolation.congr fun _ => List.mem_reverse] at hloop
  exact hloop

end Sets

/-! ## A function over its data sets -/

/-- **The first violation** of all that there may be: the name of the function; or the first
parameter that violates something, behind identifiers that differ; or the first data set that
violates something, behind data sets over which the function expands. -/
inductive FirstViolation {V : Type} (policy : ArityPolicy) (parameters : List String)
    (sets : DataSets V) (function : String) : Problem → Prop
  | function {fault : Fault} (reason : Role.function.Rejects function fault) :
    FirstViolation policy parameters sets function (.invalidIdentifier function .function fault)
  | parameter {before after : List String} {name : String} {p : Problem}
    (function_valid : IsIdentifier function) (split : parameters = before ++ name :: after)
    (before_valid : ∀ q ∈ before, IsIdentifier q) (before_nodup : before.Nodup)
    (violation : ParameterViolation before name p) :
    FirstViolation policy parameters sets function p
  | dataSet {before after : List (String × Row V)} {set : String × Row V} {p : Problem}
    (split : sets.entries = before ++ set :: after)
    (expandable : Expandable policy parameters ⟨before⟩ function)
    (violation : SetViolation policy function parameters (before.map Prod.fst) set p) :
    FirstViolation policy parameters sets function p

variable {V R : Type} {policy : ArityPolicy} {parameters : List String} {sets : DataSets V}
  {f : TestFunction V R} {p : Problem}

/-- What comes behind a violation plays no part in it. -/
theorem FirstViolation.append {function : String}
    (h : FirstViolation policy parameters sets function p) (more : List (String × Row V)) :
    FirstViolation policy parameters ⟨sets.entries ++ more⟩ function p := by
  cases h with
  | function reason => exact .function reason
  | parameter hfunction hsplit hvalid hnodup h => exact .parameter hfunction hsplit hvalid hnodup h
  | @dataSet before after set _ hsplit hexpandable h =>
    have hmore : sets.entries ++ more = before ++ set :: (after ++ more) := by
      rw [hsplit, List.append_assoc, List.cons_append]
    exact .dataSet hmore hexpandable h

variable [Cell V]

/-- The checks of names come before the loop over the data sets, and a failure of theirs is the
failure of all. -/
theorem outcome_expandWith_eq_error_iff_loop :
    (expandWith policy parameters sets f).outcome = .error p ↔
      checkName .function f.name = .error p ∨
      (IsIdentifier f.name ∧
        (checkParameters [] parameters = .error p ∨
        (checkParameters [] parameters = .ok () ∧
          (expandRows policy parameters f [] sets.entries).outcome = .error p))) := by
  unfold expandWith
  simp only [Report.outcome_bind_eq_error_iff, Report.outcome_ofExcept,
    apply_ite Report.outcome, Report.outcome_warn_bind, ite_self, Report.outcome_pure,
    reduceCtorEq, and_false, exists_false, or_false]
  have hname : checkName .function f.name = .ok () ↔ IsIdentifier f.name := checkName_eq_ok_iff
  constructor
  · rintro (herror | ⟨_, hok, herror | ⟨_, haccepted, herror⟩⟩)
    · exact .inl herror
    · exact .inr ⟨hname.mp hok, .inl herror⟩
    · exact .inr ⟨hname.mp hok, .inr ⟨haccepted, herror⟩⟩
  · rintro (herror | ⟨hok, herror | ⟨haccepted, herror⟩⟩)
    · exact .inl herror
    · exact .inr ⟨(), hname.mpr hok, .inl herror⟩
    · exact .inr ⟨(), hname.mpr hok, .inr ⟨(), haccepted, herror⟩⟩

/-- **What is reported is the first violation.** -/
theorem outcome_expandWith_eq_error_iff :
    (expandWith policy parameters sets f).outcome = .error p ↔
      FirstViolation policy parameters sets f.name p := by
  rw [outcome_expandWith_eq_error_iff_loop, checkName_eq_error_iff, checkParameters_eq_error_iff,
    checkParameters_eq_ok_iff, outcome_expandRows_eq_error_iff]
  constructor
  · rintro (⟨fault, reason, rfl⟩ | ⟨hfunction, ⟨before, name, after, hsplit, hvalid, hnodup, h⟩ |
      ⟨⟨hparameters, hdistinct, _⟩, before, set, after, hsplit, hbefore, hnodup, h⟩⟩)
    · exact .function reason
    · exact .parameter hfunction hsplit hvalid hnodup h
    · refine .dataSet hsplit ⟨hfunction, hparameters, hdistinct, ?_, hnodup, ?_⟩ h
      · intro name hname
        obtain ⟨other, hother, rfl⟩ := List.mem_map.mp hname
        exact (hbefore other hother).1
      · exact fun other hother => (hbefore other hother).2
  · rintro (reason | ⟨hfunction, hsplit, hvalid, hnodup, h⟩ | ⟨hsplit, hexpandable, h⟩)
    · exact .inl ⟨_, reason, rfl⟩
    · exact .inr ⟨hfunction, .inl ⟨_, _, _, hsplit, hvalid, hnodup, h⟩⟩
    · refine .inr ⟨hexpandable.function_valid, .inr ⟨⟨hexpandable.parameters_valid,
        hexpandable.parameters_nodup, fun _ _ => List.not_mem_nil⟩, _, _, _, hsplit, ?_,
        hexpandable.names_nodup, h⟩⟩
      intro other hother
      exact ⟨hexpandable.names_valid other.1 (List.mem_map_of_mem hother),
        hexpandable.rows_fit other hother⟩

/-- **A failure stays when data sets are added behind.** -/
theorem outcome_expandWith_append (h : (expandWith policy parameters sets f).outcome = .error p)
    (more : List (String × Row V)) :
    (expandWith policy parameters ⟨sets.entries ++ more⟩ f).outcome = .error p := by
  have hfirst := outcome_expandWith_eq_error_iff.mp h
  exact outcome_expandWith_eq_error_iff.mpr (hfirst.append more)

/-- **The reported problem is the first violation and names the culprit**, whatever else is wrong;
and data sets that are added behind change nothing about it. -/
theorem first_violation_reported (policy : ArityPolicy) (parameters : List String)
    (sets : DataSets V) (f : TestFunction V R) (p : Problem) :
    ((expandWith policy parameters sets f).outcome = .error p ↔
      FirstViolation policy parameters sets f.origin.name p) ∧
    ((expandWith policy parameters sets f).outcome = .error p →
      ∀ more, (expandWith policy parameters ⟨sets.entries ++ more⟩ f).outcome = .error p) := by
  refine ⟨outcome_expandWith_eq_error_iff, ?_⟩
  intro h more
  exact outcome_expandWith_append h more

/-- Two parameters, three data sets and four violations: the row that is too long is the first. -/
example :
    (expandWith .strict ["x", "y"]
      (⟨[("a", .positional [1, 2]), ("b", .positional [1, 2, 3]), ("a", .positional []),
        ("c-d", .named ⟨[("z", 1)], by decide⟩)]⟩ : DataSets Int64)
      ⟨⟨"f", "", none⟩, fun _ => ()⟩).outcome = .error (.arityMismatch "f" "b" 2 3) := rfl

end Casewise
