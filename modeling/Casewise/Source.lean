import Casewise.Datum.Basic

/-!
# Casewise.Source -- what a reader asks of a data file

Data sets and suites are read in the same way from every kind of data file. What differs is how a
file answers: whether a number will do where a text is wanted, whether an empty place is an empty
list, whether the fields of a record may be written without their names. `Source` is the class of
things that can be asked: the datum of one kind of file, the place in a document of another.

`Shape` says which parts of a file a reader is going to look at; everything else it passes over.
-/

namespace Casewise

/-- **A place in a data file.** Each question has no answer where the file does not fit it. -/
class Source (T : Type) where
  /-- A text. -/
  text? : T → Option String
  /-- A text that may be missing. -/
  optionalText? : T → Option (Option String)
  /-- A truth value. -/
  flag? : T → Option Bool
  /-- The items of a list. -/
  items? : T → Option (List T)
  /-- The members of a table, repeated names included. -/
  members? : T → Option (List (String × T))
  /-- The members of a record with the given fields. -/
  record? : List String → T → Option (List (String × T))
  /-- The place as a datum, everything in it included. -/
  datum? : T → Option Datum

/-- **The parts of a file that a reader looks at**: all of it, each item of a list, or the named
members of a record. -/
inductive Shape where
  | all
  | each (shape : Shape)
  | record (fields : List (String × Shape))

/-- A datum answers as it is. A record may also be written as a list of its first fields in
order. -/
instance : Source Datum where
  text?
    | .text s => some s
    | _ => none
  optionalText?
    | .null => some none
    | .text s => some (some s)
    | _ => none
  flag?
    | .truth b => some b
    | _ => none
  items?
    | .list items => some items
    | _ => none
  members?
    | .table members => some members
    | _ => none
  record? fields
    | .table members => some members
    | .list items => if items.length ≤ fields.length then some (fields.zip items) else none
    | _ => none
  datum? d := some d

namespace Source

variable {T α : Type}

/-- The member under a name, if there is one; no answer if there are several. -/
def member? (name : String) (members : List (String × T)) : Option (Option T) :=
  match members.filter fun m => m.1 == name with
  | [] => some none
  | [m] => some (some m.2)
  | _ => none

/-- Reads a member that has to be there. -/
def required? (name : String) (read : T → Option α) (members : List (String × T)) : Option α := do
  read (← (← member? name members))

/-- Reads a member that may be left out. -/
def optional? (name : String) (default : α) (read : T → Option α) (members : List (String × T)) :
    Option α := do
  match ← member? name members with
  | some t => read t
  | none => return default

end Source

end Casewise
