import Casewise.Cell

/-!
# Casewise.Arguments -- what a test function is called with

`Arguments` is an ordered list of names and values. The expansion never binds a name twice; a list
that does is read by its first value. The rendering puts `name=value` between commas, each value
in its outline, and is what listings show of a test.
-/

namespace Casewise

open Text

variable {V : Type}

/-- **Named values in the order in which they were bound.** -/
structure Arguments (V : Type) where
  entries : List (String × V)
deriving Inhabited

namespace Arguments

def empty : Arguments V := ⟨[]⟩

/-- Binds a value after all others. -/
def push (arguments : Arguments V) (name : String) (value : V) : Arguments V :=
  ⟨arguments.entries ++ [(name, value)]⟩

/-- The first value under a name. -/
def get? (arguments : Arguments V) (name : String) : Option V :=
  Entries.get? name arguments.entries

def contains (arguments : Arguments V) (name : String) : Bool := (arguments.get? name).isSome

def names (arguments : Arguments V) : List String := arguments.entries.map Prod.fst

def size (arguments : Arguments V) : Nat := arguments.entries.length

def isEmpty (arguments : Arguments V) : Bool := arguments.entries.isEmpty

/-- What a test is told that asks for a name it was not given. -/
def missingMessage (arguments : Arguments V) (name : String) : String :=
  "no argument named `" ++ name ++ "` in " ++
    String.ofList (Outline.list "" (arguments.names.map Outline.quoted)).oneLine

variable [Cell V]

/-- One argument as it is listed. -/
def renderEntry (e : String × V) : List Char := e.1.toList ++ '=' :: (Cell.outline e.2).oneLine

def renderChars (arguments : Arguments V) : List Char :=
  Outline.commaJoin (arguments.entries.map renderEntry)

/-- **The arguments as they are listed.** -/
def render (arguments : Arguments V) : String := String.ofList arguments.renderChars

def outline (arguments : Arguments V) : Outline :=
  .record "Arguments"
    [("entries",
      .list "" (arguments.entries.map fun e => .tuple "" [.quoted e.1, Cell.outline e.2]))] true

/-- The same names and values one by one. -/
def sameEntries : List (String × V) → List (String × V) → Bool
  | [], [] => true
  | (na, a) :: as, (nb, b) :: bs => na == nb && Cell.same a b && sameEntries as bs
  | _, _ => false

/-- The same names and values in the same order. -/
def same (a b : Arguments V) : Bool := sameEntries a.entries b.entries

end Arguments

end Casewise
