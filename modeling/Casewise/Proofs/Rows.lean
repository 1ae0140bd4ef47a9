import Casewise.Expansion
import Casewise.Proofs.Names

/-!
# Casewise.Proofs.Rows -- when parameters are accepted and what a row binds

Two checks stand before every generated test. The parameters of a function are accepted when they
are identifiers and none is repeated (`checkParameters_eq_ok_iff`). A row is bound when it fits
them: under the strict policy a positional row has one value for each parameter, and a named row
uses the names of parameters only, or any identifier where no parameters are declared
(`Row.Fits`).

What a row binds, if it is bound, depends neither on the policy nor on the function: parameters
paired with values as far as both go, or the named values in the order of their names
(`Row.arguments`). `outcome_bindRow_eq_ok_iff` puts the two together.
-/

namespace Casewise

open Identifier

variable {V : Type}

/-! ## Checked names -/

theorem check_bind_eq_ok_iff {β : Type} {check : Except Problem Unit}
    {next : Unit → Except Problem β} {b : β} :
    (check >>= next) = .ok b ↔ check = .ok () ∧ next () = .ok b := by
  cases check with
  | ok _ => simp [bind, Except.bind]
  | error p => simp [bind, Except.bind]

theorem checkName_eq_ok_iff {role : Role} {name : String} :
    checkName role name = .ok () ↔ role.Admits name := by
  rw [← Role.fault?_eq_none_iff, checkName]
  cases role.fault? name with
  | none => simp
  | some fault => simp

/-- **Parameters are accepted when they are identifiers, distinct, and new.** -/
theorem checkParameters_eq_ok_iff {seen parameters : List String} :
    checkParameters seen parameters = .ok () ↔
      (∀ p ∈ parameters, IsIdentifier p) ∧ parameters.Nodup ∧ ∀ p ∈ parameters, p ∉ seen := by
  induction parameters generalizing seen with
  | nil => simp [checkParameters]
  | cons name rest ih =>
    simp only [checkParameters, check_bind_eq_ok_iff, checkName_eq_ok_iff]
    constructor
    · rintro ⟨hname, h⟩
      split at h
      · cases h
      · rename_i hseen
        obtain ⟨hrest, hnodup, hnew⟩ := ih.mp h
        refine ⟨?_, List.nodup_cons.mpr ⟨fun hm => hnew name hm List.mem_cons_self, hnodup⟩, ?_⟩
        · exact List.forall_mem_cons.mpr ⟨hname, hrest⟩
        · exact List.forall_mem_cons.mpr
            ⟨hseen, fun p hp hm => hnew p hp (List.mem_cons_of_mem _ hm)⟩
    · rintro ⟨hvalid, hnodup, hnew⟩
      obtain ⟨hname, hrest⟩ := List.forall_mem_cons.mp hvalid
      obtain ⟨hfirst, hnodup⟩ := List.nodup_cons.mp hnodup
      obtain ⟨hseen, hnew⟩ := List.forall_mem_cons.mp hnew
      refine ⟨hname, ?_⟩
      rw [if_neg hseen, ih]
      -- a later name has been seen either in this round or before it
      refine ⟨hrest, hnodup, fun p hp hm => ?_⟩
      rcases List.mem_cons.mp hm with rfl | hm
      · exact hfirst hp
      · exact hnew p hp hm

/-! ## Rows -/

/-- **The names that a named row may use**: those of the parameters, or any identifier when no
parameters are declared. -/
def MayName (parameters : List String) (name : String) : Prop :=
  (parameters ≠ [] → name ∈ parameters) ∧ (parameters = [] → IsIdentifier name)

theorem mayName_nil {name : String} : MayName [] name ↔ IsIdentifier name := by
  simp [MayName]

theorem mayName_of_ne_nil {parameters : List String} {name : String} (h : parameters ≠ []) :
    MayName parameters name ↔ name ∈ parameters := by
  simp [MayName, h]

theorem checkNamed_eq_ok_iff {function dataSet : String} {parameters names : List String} :
    checkNamed function dataSet parameters names = .ok () ↔
      ∀ name ∈ names, MayName parameters name := by
  induction names with
  | nil => simp [checkNamed]
  | cons name rest ih =>
    rw [List.forall_mem_cons, ← ih, checkNamed]
    -- whether any parameters are declared decides what every name is checked for
    cases parameters with
    | nil =>
      simp only [List.isEmpty_nil, if_true, check_bind_eq_ok_iff, checkName_eq_ok_iff,
        mayName_nil]
      exact Iff.rfl
    | cons p ps =>
      rw [mayName_of_ne_nil (List.cons_ne_nil p ps)]
      by_cases h : name ∈ p :: ps
      · simp [h, check_bind_eq_ok_iff]
      · simp [h, check_bind_eq_ok_iff]

namespace Row

/-- **When a row can be bound** to parameters. -/
def Fits (policy : ArityPolicy) (parameters : List String) : Row V → Prop
  | .positional values => policy = .strict → values.length = parameters.length
  | .named values => ∀ name ∈ values.names, MayName parameters name

/-- **What a row binds**: values paired with parameters as far as both go, or the named values in
the order of their names. -/
def arguments (parameters : List String) : Row V → Arguments V
  | .positional values => ⟨parameters.zip values⟩
  | .named values => ⟨values.entries⟩

end Row

/-- **A row is bound exactly when it fits, and to what it stands for.** -/
theorem outcome_bindRow_eq_ok_iff {policy : ArityPolicy} {function dataSet : String}
    {parameters : List String} {row : Row V} {arguments : Arguments V} :
    (bindRow policy function dataSet parameters row).outcome = .ok arguments ↔
      row.Fits policy parameters ∧ arguments = row.arguments parameters := by
  cases row with
  | positional values =>
    simp only [bindRow, Row.Fits, Row.arguments]
    by_cases hlength : values.length = parameters.length
    · simp [hlength, eq_comm]
    · cases policy with
      | strict => simp [hlength]
      | lenient => simp [hlength, eq_comm]
  | named values =>
    simp only [bindRow, Row.Fits, Row.arguments, Report.outcome_check_bind_eq_ok_iff,
      Report.outcome_ofExcept, Report.outcome_pure, checkNamed_eq_ok_iff, Except.ok.injEq,
      eq_comm (a := arguments)]

end Casewise
