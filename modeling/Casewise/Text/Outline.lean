import Casewise.Text.Quoted

/-!
# Casewise.Text.Outline -- the outline of a value and its two settings

What a value looks like to someone who debugs a suite is an outline: records with named fields,
tuples, lists, maps from names, and atoms that are set as they are. An outline is set either on
one line (`oneLine`) or over several, four columns deeper at each level and with a comma after
every part (`indented`). A record may leave fields out, and says so by two dots.
-/

namespace Casewise.Text

/-- **The outline of a value.** -/
inductive Outline where
  | atom (text : List Char)
  | record (name : String) (fields : List (String × Outline)) (complete : Bool)
  | tuple (name : String) (items : List Outline)
  | list (label : String) (items : List Outline)
  | map (label : String) (entries : List (String × Outline))

namespace Outline

def ofString (text : String) : Outline := .atom text.toList

/-- A text in its quoted form. -/
def quoted (text : String) : Outline := .atom (quote text.toList)

/-- A value that may be missing. -/
def option : Option Outline → Outline
  | none => ofString "None"
  | some outline => .tuple "Some" [outline]

instance : Inhabited Outline := ⟨.atom []⟩

/-! ## On one line -/

/-- The parts with a comma and a space between them. -/
def commaJoin (parts : List (List Char)) : List Char := List.intercalate [',', ' '] parts

mutual

/-- **The outline on one line.** -/
def oneLine : Outline → List Char
  | .atom text => text
  | .record name fields complete =>
    name.toList ++ " \x7b ".toList ++ commaJoin (oneLineFields fields) ++
      (if complete then " \x7d".toList else ", .. \x7d".toList)
  | .tuple name items => name.toList ++ ['('] ++ commaJoin (oneLineItems items) ++ [')']
  | .list label items => label.toList ++ ['['] ++ commaJoin (oneLineItems items) ++ [']']
  | .map label entries =>
    label.toList ++ ['\x7b'] ++ commaJoin (oneLineEntries entries) ++ ['\x7d']

def oneLineItems : List Outline → List (List Char)
  | [] => []
  | item :: rest => oneLine item :: oneLineItems rest

def oneLineFields : List (String × Outline) → List (List Char)
  | [] => []
  | (name, value) :: rest => (name.toList ++ [':', ' '] ++ oneLine value) :: oneLineFields rest

def oneLineEntries : List (String × Outline) → List (List Char)
  | [] => []
  | (key, value) :: rest =>
    (quote key.toList ++ [':', ' '] ++ oneLine value) :: oneLineEntries rest

end

theorem oneLineItems_eq_map (items : List Outline) : oneLineItems items = items.map oneLine := by
  induction items with
  | nil => rfl
  | cons item rest ih => rw [oneLineItems, ih, List.map_cons]

theorem oneLineEntries_eq_map (entries : List (String × Outline)) :
    oneLineEntries entries =
      entries.map fun e => quote e.1.toList ++ [':', ' '] ++ oneLine e.2 := by
  induction entries with
  | nil => rfl
  | cons entry rest ih => rw [oneLineEntries, ih, List.map_cons]

/-! ## Over several lines -/

/-- The start of a line `level` levels deep. -/
def margin (level : Nat) : List Char := List.replicate (4 * level) ' '

/-- One part on lines of its own, followed by a comma. -/
def ownLine (level : Nat) (part : List Char) : List Char := margin level ++ part ++ [',', '\n']

/-- Parts between brackets, or the bare brackets when there are none. -/
def bracketed (level : Nat) (opening closing : Char) (body : List Char) : List Char :=
  if body.isEmpty then [opening, closing]
  else opening :: '\n' :: (body ++ margin level ++ [closing])

mutual

/-- **The outline over several lines**, its first line standing `level` levels deep. -/
def indented (level : Nat) : Outline → List Char
  | .atom text => text
  | .record name fields complete =>
    let dots := if complete then [] else margin (level + 1) ++ ['.', '.', '\n']
    name.toList ++ [' '] ++
      bracketed level '\x7b' '\x7d' (indentedFields (level + 1) fields ++ dots)
  | .tuple name items => name.toList ++ bracketed level '(' ')' (indentedItems (level + 1) items)
  | .list label items => label.toList ++ bracketed level '[' ']' (indentedItems (level + 1) items)
  | .map label entries =>
    label.toList ++ bracketed level '\x7b' '\x7d' (indentedEntries (level + 1) entries)

def indentedItems (level : Nat) : List Outline → List Char
  | [] => []
  | item :: rest => ownLine level (indented level item) ++ indentedItems level rest

def indentedFields (level : Nat) : List (String × Outline) → List Char
  | [] => []
  | (name, value) :: rest =>
    ownLine level (name.toList ++ [':', ' '] ++ indented level value) ++
      indentedFields level rest

def indentedEntries (level : Nat) : List (String × Outline) → List Char
  | [] => []
  | (key, value) :: rest =>
    ownLine level (quote key.toList ++ [':', ' '] ++ indented level value) ++
      indentedEntries level rest

end

end Outline

end Casewise.Text
