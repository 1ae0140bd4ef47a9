import Casewise.Datum.Basic
import Casewise.Decimal.Layout

/-!
# Casewise.Json.Writer -- data as JSON text

`write` sets a datum as JSON on one line without blanks, `writeIndented` over several lines, two
columns deeper at each level. Members stand in the order of the table and repeated names are
repeated. Between quotes only the quote, the backslash and the characters below the space are
escaped; all others stand as they are.

A real is written with the fewest digits that read back and always looks like one: it has a
fraction or an exponent. JSON has no word for a real that is not finite, and none for a datum that
stands for nothing; both are written as null.
-/

namespace Casewise.Json

open Decimal

/-! ## Texts -/

/-- The characters with a short escape, and the letter that stands for each. -/
def shortEscapes : List (Char × Char) :=
  [('"', '"'), ('\\', '\\'), ('\x08', 'b'), ('\x0c', 'f'), ('\n', 'n'), ('\r', 'r'), ('\t', 't')]

/-- Four hexadecimal digits, lower case. -/
def fourDigits (n : Nat) : List Char :=
  [n / 4096 % 16, n / 256 % 16, n / 16 % 16, n % 16].map Nat.digitChar

/-- How one character is written in a JSON text. -/
def escape (c : Char) : List Char :=
  match shortEscapes.lookup c with
  | some letter => ['\\', letter]
  | none => if c.toNat < 0x20 then '\\' :: 'u' :: fourDigits c.toNat else [c]

/-- A text between quotes. -/
def writeText (s : String) : List Char := '"' :: (s.toList.flatMap escape ++ ['"'])

/-! ## Numbers -/

/-- Reals are positional from `0.00001` up to `10 ^ 16`, exponents carry their sign, and of two
equally near digit strings the even one is taken. -/
def realLayout : Layout := ⟨-4, 16, true, .toEven⟩

def writeInt (i : Int) : List Char :=
  (if i < 0 then ['-'] else []) ++ Nat.toDigits 10 i.natAbs

def writeReal (x : Float) : List Char :=
  match Reading.ofFloat x with
  | .finite b => realLayout.ofBinary b
  | _ => "null".toList

/-! ## On one line -/

/-- The parts with a comma between them. -/
def commaJoin (parts : List (List Char)) : List Char := List.intercalate [','] parts

mutual

/-- **A datum as JSON on one line.** -/
def write : Datum → List Char
  | .null | .unreadable => "null".toList
  | .truth true => "true".toList
  | .truth false => "false".toList
  | .int i => writeInt i
  | .real x => writeReal x
  | .text s => writeText s
  | .list items => '[' :: (commaJoin (writeItems items) ++ [']'])
  | .table members => '\x7b' :: (commaJoin (writeMembers members) ++ ['\x7d'])

def writeItems : List Datum → List (List Char)
  | [] => []
  | d :: rest => write d :: writeItems rest

def writeMembers : List (String × Datum) → List (List Char)
  | [] => []
  | (name, d) :: rest => (writeText name ++ ':' :: write d) :: writeMembers rest

end

/-! ## Over several lines -/

def margin (level : Nat) : List Char := List.replicate (2 * level) ' '

/-- Parts between brackets, each on a line of its own one level deeper; the bare brackets when
there are none. -/
def bracketed (level : Nat) (opening closing : Char) (parts : List (List Char)) : List Char :=
  if parts.isEmpty then [opening, closing]
  else
    opening :: '\n' ::
      (List.intercalate [',', '\n'] (parts.map (margin (level + 1) ++ ·)) ++
        '\n' :: (margin level ++ [closing]))

mutual

/-- **A datum as JSON over several lines**, its first line standing `level` levels deep. -/
def writeIndented (level : Nat) : Datum → List Char
  | .list items => bracketed level '[' ']' (indentedItems (level + 1) items)
  | .table members => bracketed level '\x7b' '\x7d' (indentedMembers (level + 1) members)
  | d => write d

def indentedItems (level : Nat) : List Datum → List (List Char)
  | [] => []
  | d :: rest => writeIndented level d :: indentedItems level rest

def indentedMembers (level : Nat) : List (String × Datum) → List (List Char)
  | [] => []
  | (name, d) :: rest =>
    (writeText name ++ [':', ' '] ++ writeIndented level d) :: indentedMembers level rest

end

/-- The JSON text of a datum. -/
def textOf (d : Datum) : String := String.ofList (write d)

end Casewise.Json
