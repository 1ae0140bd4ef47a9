import Casewise.Json.Writer
import Casewise.Namespace
import Casewise.Text.Styled

/-!
# Casewise.Listing -- tests and files as they are printed

Tests are listed one to a line, with the data set they come from and the arguments they run with,
and a last line counts them; or as JSON, for other programs to read. A file that was checked has a
line that says how many names it binds, or that it failed.
-/

namespace Casewise

open Text

variable {R : Type}

namespace TestCase

/-- The line of a test: its qualified name, its data set between brackets, its arguments. -/
def line (t : TestCase R) : Styled :=
  [⟨some ⟨.green, true⟩, t.qualifiedName⟩] ++
  (match t.dataSet with
    | some dataSet => [⟨some ⟨.yellow, false⟩, "  [" ++ dataSet ++ "]"⟩]
    | none => []) ++
  [.plain ("  " ++ t.arguments ++ "\n")]

/-- What JSON listings tell about a test. -/
def datum (t : TestCase R) : Datum :=
  .table
    [("name", .text t.name), ("qualified_name", .text t.qualifiedName),
      ("function", .text t.origin.name),
      ("data_set", (t.dataSet.map Datum.text).getD .null), ("arguments", .text t.arguments)]

end TestCase

namespace Listing

/-- **Tests line by line**, and how many there are. -/
def ofTests (tests : List (TestCase R)) : Styled :=
  tests.flatMap TestCase.line ++ [.plain (toString tests.length ++ " test(s) generated\n")]

/-- **Tests as JSON.** -/
def jsonOfTests (tests : List (TestCase R)) : Styled :=
  [.plain (String.ofList (Json.writeIndented 0 (.list (tests.map TestCase.datum))) ++ "\n")]

/-- **The line of a checked file**: how many names it binds, or that it failed. -/
def statusLine (path : String) (outcome : Except Problem Nat) : Styled :=
  .plain (path ++ ": ") ::
  match outcome with
  | .ok count =>
    [⟨some ⟨.green, true⟩, "ok"⟩, .plain (" (" ++ toString count ++ " test(s))\n")]
  | .error _ => [⟨some ⟨.red, true⟩, "FAILED"⟩, .plain "\n"]

end Listing

end Casewise
