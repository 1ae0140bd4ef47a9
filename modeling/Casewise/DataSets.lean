import Casewise.Cell

/-!
# Casewise.DataSets -- named rows of cells

A data set is a name and a row: the values for one run of a test function. A row lists its values
in the order of the parameters, or names each of them. `DataSets` keeps the sets of one function
in the order in which they were written, repeated names included; that a name is repeated is for
the expansion to report, so that no case is dropped in silence.

In a data file a list is a positional row and a table is a named one, and every cell has to fit
the type of the cells. Within a named row the last of several values under one name counts.
-/

namespace Casewise

open Text

variable {V : Type}

/-- **The values of one data set.** -/
inductive Row (V : Type) where
  | positional (values : List V)
  | named (values : NameMap V)
deriving Inhabited

/-- **Named rows in the order of writing.** -/
structure DataSets (V : Type) where
  entries : List (String × Row V)
deriving Inhabited

/-! ## Rows -/

namespace Row

def size : Row V → Nat
  | .positional values => values.length
  | .named values => values.size

def isEmpty (row : Row V) : Bool := row.size == 0

def isPositional : Row V → Bool
  | .positional _ => true
  | .named _ => false

variable [Cell V]

/-- Reads each member of a table, keeping order and repeated names. -/
def readMembers? (members : List (String × Datum)) : Option (List (String × V)) :=
  members.mapM fun m => (Cell.read? m.2).map fun v => (m.1, v)

/-- A datum read as a positional row: a list in which every item fits. -/
def positional? : Datum → Option (Row V)
  | .list items => (items.mapM Cell.read?).map .positional
  | _ => none

/-- A datum read as a named row: a table in which every member fits. -/
def named? : Datum → Option (Row V)
  | .table members => (readMembers? members).map fun ms => .named (NameMap.ofList ms)
  | _ => none

/-- **The row that a datum stands for**: the first of the two kinds that it can be read as. -/
def read? (d : Datum) : Option (Row V) := positional? d <|> named? d

/-- The members that a named row is written as. -/
def writeMembers (values : NameMap V) : List (String × Datum) :=
  values.entries.map fun e => (e.1, Cell.write e.2)

def write : Row V → Datum
  | .positional values => .list (values.map Cell.write)
  | .named values => .table (writeMembers values)

def outline : Row V → Outline
  | .positional values => .tuple "Positional" [.list "" (values.map Cell.outline)]
  | .named values =>
    .tuple "Named" [.map "" (values.entries.map fun e => (e.1, Cell.outline e.2))]

/-- The same cells one by one. -/
def sameCells : List V → List V → Bool
  | [], [] => true
  | a :: as, b :: bs => Cell.same a b && sameCells as bs
  | _, _ => false

/-- Rows of one kind with the same cells, and the same names if they have any. -/
def same : Row V → Row V → Bool
  | .positional a, .positional b => sameCells a b
  | .named a, .named b => a.names == b.names && sameCells a.values b.values
  | _, _ => false

end Row

/-! ## Collections of rows -/

namespace DataSets

def empty : DataSets V := ⟨[]⟩

/-- Adds a data set after all others, also under a name that is taken. -/
def insert (sets : DataSets V) (name : String) (row : Row V) : DataSets V :=
  ⟨sets.entries ++ [(name, row)]⟩

/-- The first row under a name. -/
def get? (sets : DataSets V) (name : String) : Option (Row V) := Entries.get? name sets.entries

def names (sets : DataSets V) : List String := sets.entries.map Prod.fst

def size (sets : DataSets V) : Nat := sets.entries.length

def isEmpty (sets : DataSets V) : Bool := sets.entries.isEmpty

variable [Cell V]

/-- The sets as one table, repeated names repeated. -/
def write (sets : DataSets V) : Datum := .table (sets.entries.map fun e => (e.1, e.2.write))

def outline (sets : DataSets V) : Outline :=
  .record "DataSets"
    [("entries", .list "" (sets.entries.map fun e => .tuple "" [.quoted e.1, e.2.outline]))] true

/-- The same names and rows one by one. -/
def sameEntries : List (String × Row V) → List (String × Row V) → Bool
  | [], [] => true
  | (na, a) :: as, (nb, b) :: bs => na == nb && a.same b && sameEntries as bs
  | _, _ => false

/-- The same names and rows in the same order. -/
def same (a b : DataSets V) : Bool := sameEntries a.entries b.entries

end DataSets

end Casewise
