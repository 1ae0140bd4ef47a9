import Casewise.Problem

/-!
# Casewise.Report -- an outcome and the warnings on the way to it

Expanding a data set can fail, and whether it fails or not it may have something to warn about. A
`Report` holds both: the warnings in the order in which they were raised, and the outcome. Steps
are chained so that a problem ends the chain and keeps the warnings raised before it.
-/

namespace Casewise

/-- **Something to be told about that is not a failure.** -/
inductive Warning where
  /-- A function has no data sets, so it expands to nothing. -/
  | noDataSets (function : String)
  /-- A positional row was cut to the shorter of its values and the parameters. -/
  | truncated (function dataSet : String) (expected actual : Nat)
deriving Repr, DecidableEq, Inhabited

/-- The wording of a warning. -/
def Warning.message : Warning → String
  | .noDataSets _ => "no data sets supplied; nothing will be generated"
  | .truncated .. => "positional data set truncated to the shorter side"

/-- **An outcome together with the warnings on the way to it.** -/
structure Report (α : Type) where
  warnings : List Warning
  outcome : Except Problem α

namespace Report

variable {α β : Type}

/-- Success without a warning. -/
def done (a : α) : Report α := ⟨[], .ok a⟩

/-- Failure without a warning. -/
def fail (p : Problem) : Report α := ⟨[], .error p⟩

def ofExcept (outcome : Except Problem α) : Report α := ⟨[], outcome⟩

/-- Raises a warning. -/
def warn (w : Warning) : Report Unit := ⟨[w], .ok ()⟩

/-- Goes on with the result, if there is one; warnings add up. -/
def andThen (report : Report α) (next : α → Report β) : Report β :=
  match report.outcome with
  | .ok a => ⟨report.warnings ++ (next a).warnings, (next a).outcome⟩
  | .error p => ⟨report.warnings, .error p⟩

instance : Monad Report where
  pure := done
  bind := andThen

instance : Inhabited (Report α) := ⟨fail default⟩

/-! ## The outcome of a chain -/

@[simp] theorem outcome_done (a : α) : (done a).outcome = .ok a := rfl

@[simp] theorem outcome_pure (a : α) : (pure a : Report α).outcome = .ok a := rfl

@[simp] theorem outcome_fail (p : Problem) : (fail p : Report α).outcome = .error p := rfl

@[simp] theorem outcome_ofExcept (outcome : Except Problem α) :
    (ofExcept outcome).outcome = outcome := rfl

@[simp] theorem outcome_warn (w : Warning) : (warn w).outcome = .ok () := rfl

@[simp] theorem outcome_warn_bind (w : Warning) (next : Unit → Report β) :
    (warn w >>= next).outcome = (next ()).outcome := rfl

theorem outcome_bind_of_ok {report : Report α} {a : α} (h : report.outcome = .ok a)
    (next : α → Report β) : (report >>= next).outcome = (next a).outcome := by
  show (report.andThen next).outcome = _
  rw [andThen, h]

theorem outcome_bind_of_error {report : Report α} {p : Problem} (h : report.outcome = .error p)
    (next : α → Report β) : (report >>= next).outcome = .error p := by
  show (report.andThen next).outcome = _
  rw [andThen, h]

/-- A chain succeeds when each of its steps does. -/
theorem outcome_bind_eq_ok_iff {report : Report α} {next : α → Report β} {b : β} :
    (report >>= next).outcome = .ok b ↔
      ∃ a, report.outcome = .ok a ∧ (next a).outcome = .ok b := by
  cases h : report.outcome with
  | ok a => simp [outcome_bind_of_ok h]
  | error p => simp [outcome_bind_of_error h]

/-- A chain fails where its first step does, or else where the rest does. -/
theorem outcome_bind_eq_error_iff {report : Report α} {next : α → Report β} {p : Problem} :
    (report >>= next).outcome = .error p ↔
      report.outcome = .error p ∨ ∃ a, report.outcome = .ok a ∧ (next a).outcome = .error p := by
  cases h : report.outcome with
  | ok a => simp [outcome_bind_of_ok h]
  | error q => simp [outcome_bind_of_error h]

/-- A chain that starts with a check succeeds when the check does and the rest does. -/
theorem outcome_check_bind_eq_ok_iff {check : Report Unit} {next : Unit → Report β} {b : β} :
    (check >>= next).outcome = .ok b ↔ check.outcome = .ok () ∧ (next ()).outcome = .ok b := by
  rw [outcome_bind_eq_ok_iff]
  exact ⟨fun ⟨_, hcheck, hnext⟩ => ⟨hcheck, hnext⟩, fun ⟨hcheck, hnext⟩ => ⟨(), hcheck, hnext⟩⟩

/-- The outcome of a chain depends on the outcomes of its steps alone. -/
theorem outcome_bind_congr {report other : Report α} {next following : α → Report β}
    (h : report.outcome = other.outcome)
    (hnext : ∀ a, (next a).outcome = (following a).outcome) :
    (report >>= next).outcome = (other >>= following).outcome := by
  cases hother : other.outcome with
  | ok a => rw [outcome_bind_of_ok (h.trans hother), outcome_bind_of_ok hother, hnext]
  | error p => rw [outcome_bind_of_error (h.trans hother), outcome_bind_of_error hother]

/-! ## The warnings of a chain -/

@[simp] theorem warnings_pure (a : α) : (pure a : Report α).warnings = [] := rfl

@[simp] theorem warnings_ofExcept (outcome : Except Problem α) :
    (ofExcept outcome).warnings = [] := rfl

theorem warnings_bind_of_ok {report : Report α} {a : α} (h : report.outcome = .ok a)
    (next : α → Report β) :
    (report >>= next).warnings = report.warnings ++ (next a).warnings := by
  show (report.andThen next).warnings = _
  rw [andThen, h]

theorem warnings_bind_of_error {report : Report α} {p : Problem} (h : report.outcome = .error p)
    (next : α → Report β) : (report >>= next).warnings = report.warnings := by
  show (report.andThen next).warnings = _
  rw [andThen, h]

/-- A step that never warns adds nothing, whether it is taken or not. -/
theorem warnings_bind_of_silent {next : α → Report β} (h : ∀ a, (next a).warnings = [])
    (report : Report α) : (report >>= next).warnings = report.warnings := by
  cases houtcome : report.outcome with
  | ok a => rw [warnings_bind_of_ok houtcome, h, List.append_nil]
  | error p => rw [warnings_bind_of_error houtcome]

end Report

end Casewise
