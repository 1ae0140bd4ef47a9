import Casewise.Arguments
import Casewise.DataSets
import Casewise.Report

/-!
# Casewise.Expansion -- one test per data set

A test function has parameters. `expandWith` turns a function, the names of its parameters and its
data sets into one test without parameters per data set, in the order of the sets. Either every
set yields its test or the first problem is reported; nothing is generated halfway.

The problems are looked for in a fixed order: the name of the function, the parameters from left
to right, and then set by set its name, the binding of its row and its generated name. A
positional row is paired with the parameters in order, and its length has to agree with theirs;
under the lenient policy the shorter side wins and the cut is warned about. A named row may leave
parameters out but not name others; when no parameters are declared, its names only have to be
usable as parameter names.
-/

namespace Casewise

open Identifier Text

variable {V R : Type}

/-! ## Functions and tests -/

/-- **Where a test comes from**: a function, the module it stands in and what it says about
itself. -/
structure Origin where
  name : String
  modulePath : String
  doc : Option String
deriving Repr, DecidableEq, Inhabited

/-- A name behind the path of its module. -/
def qualify (modulePath name : String) : String :=
  if modulePath.isEmpty then name else modulePath ++ "::" ++ name

def Origin.qualifiedName (origin : Origin) : String := qualify origin.modulePath origin.name

def Origin.outline (origin : Origin) : Outline :=
  .record "Origin"
    [("name", .quoted origin.name), ("module_path", .quoted origin.modulePath),
      ("doc", .option (origin.doc.map .quoted))] true

/-- **A test function**: what it is to be called, and what calling it gives. -/
structure TestFunction (V R : Type) where
  origin : Origin
  body : Arguments V → R

namespace TestFunction

def name (f : TestFunction V R) : String := f.origin.name

def outline (f : TestFunction V R) : Outline :=
  .record "TestFunction" [("origin", f.origin.outline)] false

end TestFunction

/-- **A test that takes no arguments**, generated from a data set or written by hand. -/
structure TestCase (R : Type) where
  name : String
  /-- The data set it was generated from. -/
  dataSet : Option String
  origin : Origin
  /-- The arguments as they are listed. -/
  arguments : String
  run : Unit → R

namespace TestCase

/-- A test written by hand, which is its own origin. -/
def plain (name modulePath : String) (run : Unit → R) : TestCase R :=
  ⟨name, none, ⟨name, modulePath, none⟩, "", run⟩

def qualifiedName (t : TestCase R) : String := qualify t.origin.modulePath t.name

def outline (t : TestCase R) : Outline :=
  .record "GeneratedTest"
    [("name", .quoted t.name), ("data_set", .option (t.dataSet.map .quoted)),
      ("origin", t.origin.outline), ("arguments", .quoted t.arguments)] false

end TestCase

/-- **All tests of one function**, in the order of its data sets. -/
structure Expansion (R : Type) where
  origin : Origin
  tests : List (TestCase R)

namespace Expansion

/-- The first test of a name. -/
def get? (e : Expansion R) (name : String) : Option (TestCase R) :=
  e.tests.find? fun t => t.name == name

def names (e : Expansion R) : List String := e.tests.map TestCase.name

def size (e : Expansion R) : Nat := e.tests.length

def isEmpty (e : Expansion R) : Bool := e.tests.isEmpty

def outline (e : Expansion R) : Outline :=
  .record "Expansion"
    [("origin", e.origin.outline), ("tests", .list "" (e.tests.map TestCase.outline))] true

end Expansion

/-! ## Checking names -/

/-- Rejects a name that breaks a rule of its role. -/
def checkName (role : Role) (name : String) : Except Problem Unit :=
  match role.fault? name with
  | none => .ok ()
  | some fault => .error (.invalidIdentifier name role fault)

/-- Checks parameters from left to right; `seen` holds those already declared. -/
def checkParameters (seen : List String) : List String → Except Problem Unit
  | [] => .ok ()
  | name :: rest => do
    checkName .parameter name
    if name ∈ seen then .error (.invalidIdentifier name .parameter .repeated)
    else checkParameters (name :: seen) rest

/-! ## Binding a row -/

/-- What becomes of a positional row whose length is not that of the parameters. -/
inductive ArityPolicy where
  | strict
  | lenient
deriving Repr, DecidableEq, Inhabited

def ArityPolicy.name : ArityPolicy → String
  | .strict => "Strict"
  | .lenient => "Lenient"

/-- Rejects the first name that no parameter has, or, when no parameters are declared, the first
that none could have. -/
def checkNamed (function dataSet : String) (parameters : List String) :
    List String → Except Problem Unit
  | [] => .ok ()
  | name :: rest => do
    if parameters.isEmpty then checkName .parameter name
    else if name ∈ parameters then .ok ()
    else .error (.unknownParameter function dataSet name)
    checkNamed function dataSet parameters rest

/-- **The arguments that a row stands for.** -/
def bindRow (policy : ArityPolicy) (function dataSet : String) (parameters : List String) :
    Row V → Report (Arguments V)
  | .positional values =>
    let arguments : Arguments V := ⟨parameters.zip values⟩
    if values.length = parameters.length then .done arguments
    else match policy with
      | .strict => .fail (.arityMismatch function dataSet parameters.length values.length)
      | .lenient =>
        ⟨[.truncated function dataSet parameters.length values.length], .ok arguments⟩
  | .named values => do
    .ofExcept (checkNamed function dataSet parameters values.names)
    return ⟨values.entries⟩

/-! ## Expanding -/

variable [Cell V]

/-- The test that a function makes of bound arguments. -/
def TestFunction.instantiate (f : TestFunction V R) (dataSet : String)
    (arguments : Arguments V) : TestCase R :=
  { name := generatedName f.name dataSet
    dataSet := some dataSet
    origin := f.origin
    arguments := arguments.render
    run := fun _ => f.body arguments }

/-- One test per data set; `seen` holds the names generated before. -/
def expandRows (policy : ArityPolicy) (parameters : List String) (f : TestFunction V R)
    (seen : List String) : List (String × Row V) → Report (List (TestCase R))
  | [] => .done []
  | (dataSet, row) :: rest => do
    .ofExcept (checkName .dataSet dataSet)
    let arguments ← bindRow policy f.name dataSet parameters row
    let test := f.instantiate dataSet arguments
    if test.name ∈ seen then .fail (.duplicateName test.name (some dataSet))
    else
      let tests ← expandRows policy parameters f (test.name :: seen) rest
      return test :: tests

/-- **Expands a test function over data sets.** -/
def expandWith (policy : ArityPolicy) (parameters : List String) (sets : DataSets V)
    (f : TestFunction V R) : Report (Expansion R) := do
  .ofExcept (checkName .function f.name)
  .ofExcept (checkParameters [] parameters)
  if sets.isEmpty then .warn (.noDataSets f.name)
  let tests ← expandRows policy parameters f [] sets.entries
  return ⟨f.origin, tests⟩

end Casewise
