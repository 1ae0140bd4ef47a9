import Casewise.Namespace

/-!
# Casewise.CaseTable -- parameters, data sets and a policy, ready for a function

A case table is everything that a test function is expanded with, apart from the function: the
names of the parameters, the data sets and the arity policy. One table may decorate many
functions. Decorating expands the function and injects the result into a namespace; if either step
fails the namespace is left as it was.
-/

namespace Casewise

open Text

variable {V R : Type}

/-- **What test functions are expanded with.** -/
structure CaseTable (V : Type) where
  parameters : List String
  dataSets : DataSets V
  policy : ArityPolicy
deriving Inhabited

namespace CaseTable

variable [Cell V]

def expand (table : CaseTable V) (f : TestFunction V R) : Report (Expansion R) :=
  expandWith table.policy table.parameters table.dataSets f

/-- **Expands a function into a namespace**, in place; the answer is the names of its tests. -/
def decorate (table : CaseTable V) (ns : Namespace R) (f : TestFunction V R) :
    Report (List String) × Namespace R :=
  let report := table.expand f
  match report.outcome with
  | .error p => (⟨report.warnings, .error p⟩, ns)
  | .ok e =>
    let (answer, next) := ns.inject e
    (⟨report.warnings, answer⟩, next)

def outline (table : CaseTable V) : Outline :=
  .record "DataDriven"
    [("parameter_names", .list "" (table.parameters.map .quoted)),
      ("data_sets", table.dataSets.outline), ("policy", .ofString table.policy.name)] true

end CaseTable

end Casewise
