import Casewise.Expansion

/-!
# Casewise.Namespace -- the names of a module and what they are bound to

A namespace binds names to tests and to bare functions that still want arguments. Defining a
function takes a name over; defining a test refuses a name that is taken. Injecting an expansion
binds all of its tests or none: when every name is free they are bound together, and the bare
function that they came from goes.

What changes a namespace changes it in place, so each operation gives two things: its answer, and
the namespace that is there afterwards, also when the answer is a problem.

Tests are discovered by the start of their names, in ascending order of name.
-/

namespace Casewise

open Text

variable {V R : Type}

/-- What a name is bound to. -/
inductive Binding (R : Type) where
  | function (origin : Origin)
  | test (test : TestCase R)

namespace Binding

def test? : Binding R → Option (TestCase R)
  | .test t => some t
  | .function _ => none

def isFunction : Binding R → Bool
  | .function _ => true
  | .test _ => false

def outline : Binding R → Outline
  | .function origin => .tuple "Function" [origin.outline]
  | .test t => .tuple "Test" [t.outline]

end Binding

/-- **A module's names and what they are bound to.** -/
structure Namespace (R : Type) where
  modulePath : String
  bindings : NameMap (Binding R)

namespace Namespace

def empty (modulePath : String) : Namespace R := ⟨modulePath, .empty⟩

instance : Inhabited (Namespace R) := ⟨empty ""⟩

/-! ## Looking up -/

def get? (ns : Namespace R) (name : String) : Option (Binding R) := ns.bindings.get? name

/-- The test that a name is bound to. -/
def test? (ns : Namespace R) (name : String) : Option (TestCase R) :=
  (ns.get? name).bind Binding.test?

def contains (ns : Namespace R) (name : String) : Bool := ns.bindings.contains name

/-- The bound names in ascending order. -/
def names (ns : Namespace R) : List String := ns.bindings.names

def size (ns : Namespace R) : Nat := ns.bindings.size

def isEmpty (ns : Namespace R) : Bool := ns.bindings.isEmpty

/-! ## Binding and releasing names -/

/-- Binds the name of a function to it, whatever the name was bound to; the answer is what that
was. -/
def defineFunction (ns : Namespace R) (origin : Origin) : Option (Binding R) × Namespace R :=
  (ns.get? origin.name,
    { ns with bindings := ns.bindings.insert origin.name (.function origin) })

/-- Binds a free name to a test written by hand. -/
def defineTest (ns : Namespace R) (name : String) (run : Unit → R) :
    Except Problem Unit × Namespace R :=
  if ns.contains name then (.error (.duplicateName name none), ns)
  else
    (.ok (),
      { ns with bindings := ns.bindings.insert name (.test (.plain name ns.modulePath run)) })

/-- Binds a test to its own name. -/
def bindTest (bindings : NameMap (Binding R)) (t : TestCase R) : NameMap (Binding R) :=
  bindings.insert t.name (.test t)

/-- Releases a name that is bound to a bare function. -/
def dropFunction (bindings : NameMap (Binding R)) (name : String) : NameMap (Binding R) :=
  match bindings.get? name with
  | some (.function _) => bindings.erase name
  | _ => bindings

/-- **Binds all tests of an expansion or none**; the answer is their names, in the order of the
expansion. A name that is taken is reported with the data set of the first test that wants it. -/
def inject (ns : Namespace R) (e : Expansion R) : Except Problem (List String) × Namespace R :=
  match e.tests.find? fun t => ns.contains t.name with
  | some t => (.error (.duplicateName t.name t.dataSet), ns)
  | none =>
    (.ok e.names,
      { ns with bindings := e.tests.foldl bindTest (dropFunction ns.bindings e.origin.name) })

/-- Releases a name; the answer is what it was bound to. -/
def remove (ns : Namespace R) (name : String) : Option (Binding R) × Namespace R :=
  (ns.get? name, { ns with bindings := ns.bindings.erase name })

/-! ## Discovery -/

/-- **The tests whose names start with `start`**, in ascending order of name. -/
def discoverFrom (ns : Namespace R) (start : String) : List (TestCase R) :=
  (ns.bindings.entries.filter fun e => start.toList.isPrefixOf e.1.toList).filterMap
    fun e => e.2.test?

/-- What the name of a test starts with. -/
def testPrefix : String := "test_"

def discover (ns : Namespace R) : List (TestCase R) := ns.discoverFrom testPrefix

def outline (ns : Namespace R) : Outline :=
  .record "Namespace"
    [("module_path", .quoted ns.modulePath),
      ("bindings", .map "" (ns.bindings.entries.map fun e => (e.1, e.2.outline)))] true

end Namespace

end Casewise
