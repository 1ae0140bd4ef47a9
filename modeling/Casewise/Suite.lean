import Casewise.CaseTable
import Casewise.Source

/-!
# Casewise.Suite -- the data-driven functions of one module

A suite lists the test functions of a module, each with its parameters, its data sets and whether
its rows are bound leniently. This module says how data sets and suites are read from any kind of
data file and written as data, and what a suite builds: one namespace with a test for every data
set of every function, or the first problem.

The fields of a suite and of a function are read by name: fields that nobody declared are passed
over, declared ones may not be repeated, and all but the names, the module and the data sets may
be left out.
-/

namespace Casewise

variable {V T : Type}

/-! ## Reading data sets -/

/-- **Reads data sets**: a table of rows, in order, repeated names kept. -/
def DataSets.read? [Cell V] [Source T] (t : T) : Option (DataSets V) := do
  let members ← Source.members? t
  let entries ← members.mapM fun m => do
    let row ← Row.read? (← Source.datum? m.2)
    return (m.1, row)
  return ⟨entries⟩

/-! ## Suites -/

/-- **A test function of a suite.** -/
structure FunctionEntry (V : Type) where
  name : String
  doc : Option String
  parameters : List String
  dataSets : DataSets V
  lenient : Bool
deriving Inhabited

/-- **The test functions of a module.** -/
structure Suite (V : Type) where
  module : String
  functions : List (FunctionEntry V)
deriving Inhabited

namespace FunctionEntry

/-- The fields of a function, in order. -/
def fields : List String := ["name", "doc", "parameters", "data_sets", "lenient"]

def shape : Shape := .record (fields.map fun field => (field, .all))

/-- A list of texts. -/
def texts? [Source T] (t : T) : Option (List String) := do
  (← Source.items? t).mapM Source.text?

/-- **Reads a function** from its fields. -/
def read? [Cell V] [Source T] (t : T) : Option (FunctionEntry V) := do
  let members ← Source.record? fields t
  let name ← Source.required? "name" Source.text? members
  let doc ← Source.optional? "doc" none Source.optionalText? members
  let parameters ← Source.optional? "parameters" [] texts? members
  let dataSets ← Source.required? "data_sets" DataSets.read? members
  let lenient ← Source.optional? "lenient" false Source.flag? members
  return { name, doc, parameters, dataSets, lenient }

/-- A function as data; a missing doc is left out. -/
def write [Cell V] (f : FunctionEntry V) : Datum :=
  .table <|
    [("name", .text f.name)] ++
    (match f.doc with
      | some doc => [("doc", .text doc)]
      | none => []) ++
    [("parameters", .list (f.parameters.map .text)), ("data_sets", f.dataSets.write),
      ("lenient", .truth f.lenient)]

def policy (f : FunctionEntry V) : ArityPolicy := if f.lenient then .lenient else .strict

/-- What the function is expanded with. -/
def table (f : FunctionEntry V) : CaseTable V := ⟨f.parameters, f.dataSets, f.policy⟩

/-- The function itself, which does nothing: a suite is built to see its names. -/
def testFunction (f : FunctionEntry V) (module : String) : TestFunction V Unit :=
  ⟨⟨f.name, module, f.doc⟩, fun _ => ()⟩

end FunctionEntry

namespace Suite

/-- The fields of a suite, in order. -/
def fields : List String := ["module", "functions"]

def shape : Shape := .record [("module", .all), ("functions", .each FunctionEntry.shape)]

/-- A list of functions. -/
def functions? [Cell V] [Source T] (t : T) : Option (List (FunctionEntry V)) := do
  (← Source.items? t).mapM FunctionEntry.read?

/-- **Reads a suite** from its fields. -/
def read? [Cell V] [Source T] (t : T) : Option (Suite V) := do
  let members ← Source.record? fields t
  let module ← Source.required? "module" Source.text? members
  let functions ← Source.optional? "functions" [] functions? members
  return { module, functions }

def write [Cell V] (s : Suite V) : Datum :=
  .table [("module", .text s.module), ("functions", .list (s.functions.map FunctionEntry.write))]

/-! ## Building -/

variable [Cell V]

/-- Defines a function in a namespace and decorates it there. Neither answer is kept: not what the
name of the function was bound to before, nor the names of its tests. -/
def addFunction (module : String) (ns : Namespace Unit) (f : FunctionEntry V) :
    Report (Namespace Unit) := do
  let function := f.testFunction module
  let (_, claimed) := ns.defineFunction function.origin
  let (report, next) := f.table.decorate claimed function
  let _ ← report
  return next

/-- Adds functions one after the other; the first problem ends it. -/
def addFunctions (module : String) (ns : Namespace Unit) :
    List (FunctionEntry V) → Report (Namespace Unit)
  | [] => .done ns
  | f :: rest => do
    let next ← addFunction module ns f
    addFunctions module next rest

/-- **The namespace that a suite builds.** -/
def build (s : Suite V) : Report (Namespace Unit) :=
  addFunctions s.module (.empty s.module) s.functions

end Suite

end Casewise
