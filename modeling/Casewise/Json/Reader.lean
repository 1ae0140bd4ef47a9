import Casewise.Json.Numeral

/-!
# Casewise.Json.Reader -- JSON text as data

`parse?` reads one JSON text: strict notation, blanks between the pieces and nothing after them.
It keeps the members of a table in the order of the text, repeated names included.

Three things are well formed and denote nothing, so they are read as `Datum.unreadable`: a number
beyond every double, a text that escapes half of a surrogate pair, and a list or table that is
nested deeper than `depthLimit`. A table with such a text for a name is unreadable as a whole.

The recursion is on fuel, of which a text needs no more than two units for a character.
-/

namespace Casewise.Json

/-- How many lists and tables may stand inside one another. -/
def depthLimit : Nat := 127

/-! ## Blanks and words -/

def isBlank (c : Char) : Bool := c == ' ' || c == '\t' || c == '\n' || c == '\r'

/-- Passes over blanks. -/
def skip (cs : List Char) : List Char := cs.dropWhile isBlank

/-- Takes a word off the front of a text. -/
def word? (word : String) (cs : List Char) : Option (List Char) :=
  if word.toList.isPrefixOf cs then some (cs.drop word.length) else none

/-! ## Texts -/

/-- A piece of a text between quotes: a character, or half of a surrogate pair. -/
inductive Piece where
  | char (c : Char)
  | half (code : Nat)

/-- The piece that a code of sixteen bits stands for. -/
def Piece.ofCode (code : Nat) : Piece :=
  if 0xD800 ≤ code ∧ code < 0xE000 then .half code else .char (Char.ofNat code)

/-- The value of a hexadecimal digit in either case. -/
def hexDigit? (c : Char) : Option Nat :=
  if '0' ≤ c ∧ c ≤ '9' then some (c.toNat - '0'.toNat)
  else if 'a' ≤ c ∧ c ≤ 'f' then some (c.toNat - 'a'.toNat + 10)
  else if 'A' ≤ c ∧ c ≤ 'F' then some (c.toNat - 'A'.toNat + 10)
  else none

/-- The code of four hexadecimal digits. -/
def code? (a b c d : Char) : Option Nat := do
  return ((← hexDigit? a) * 16 + (← hexDigit? b)) * 256 + ((← hexDigit? c) * 16 + (← hexDigit? d))

/-- The character that a letter stands for after a backslash. -/
def unescape? : Char → Option Char
  | '"' => some '"'
  | '\\' => some '\\'
  | '/' => some '/'
  | 'b' => some '\x08'
  | 'f' => some '\x0c'
  | 'n' => some '\n'
  | 'r' => some '\r'
  | 't' => some '\t'
  | _ => none

/-- The pieces up to the closing quote, and what follows it. -/
def pieces? : List Char → Option (List Piece × List Char)
  | [] => none
  | '"' :: rest => some ([], rest)
  | '\\' :: 'u' :: a :: b :: c :: d :: rest => do
    let code ← code? a b c d
    let (pieces, rest) ← pieces? rest
    return (.ofCode code :: pieces, rest)
  | '\\' :: letter :: rest => do
    let c ← unescape? letter
    let (pieces, rest) ← pieces? rest
    return (.char c :: pieces, rest)
  | c :: rest =>
    if c.toNat < 0x20 then none
    else do
      let (pieces, rest) ← pieces? rest
      return (.char c :: pieces, rest)

/-- Joins the halves of surrogate pairs; a half on its own stands for nothing. -/
def join? : List Piece → Option (List Char)
  | [] => some []
  | .char c :: rest => (join? rest).map (c :: ·)
  | .half lead :: .half trail :: rest =>
    if lead < 0xDC00 ∧ 0xDC00 ≤ trail then
      (join? rest).map
        (Char.ofNat (0x10000 + (lead - 0xD800) * 0x400 + (trail - 0xDC00)) :: ·)
    else none
  | .half _ :: _ => none

/-- Reads a text after its opening quote. It may be well formed and stand for nothing. -/
def text? (cs : List Char) : Option (Option String × List Char) := do
  let (pieces, rest) ← pieces? cs
  return ((join? pieces).map String.ofList, rest)

/-! ## Data -/

/-- What a list or table denotes when `room` more of them may be opened. -/
def nested (room : Nat) (d : Datum) : Datum := if room = 0 then .unreadable else d

/-- What a table denotes whose names may be broken. -/
def tableOf : Option (List (String × Datum)) → Datum
  | some members => .table members
  | none => .unreadable

/-- What a text denotes. -/
def textDatum : Option String → Datum
  | some s => .text s
  | none => .unreadable

mutual

/-- Reads one datum that starts at the front of the text. -/
def value? : Nat → Nat → List Char → Option (Datum × List Char)
  | 0, _, _ => none
  | fuel + 1, room, cs =>
    match cs with
    | 'n' :: rest => (word? "ull" rest).map (.null, ·)
    | 't' :: rest => (word? "rue" rest).map (.truth true, ·)
    | 'f' :: rest => (word? "alse" rest).map (.truth false, ·)
    | '"' :: rest => (text? rest).map fun (s, rest) => (textDatum s, rest)
    | '[' :: rest =>
      match skip rest with
      | ']' :: rest => some (nested room (.list []), rest)
      | rest => (items? fuel (room - 1) rest).map fun (ds, rest) => (nested room (.list ds), rest)
    | '\x7b' :: rest =>
      match skip rest with
      | '\x7d' :: rest => some (nested room (.table []), rest)
      | rest => (members? fuel (room - 1) rest).map fun (ms, rest) =>
        (nested room (tableOf ms), rest)
    | cs => (Numeral.read? cs).map fun (n, rest) => (n.datum, rest)

/-- Reads the items of a list, at least one, up to the closing bracket. -/
def items? : Nat → Nat → List Char → Option (List Datum × List Char)
  | 0, _, _ => none
  | fuel + 1, room, cs =>
    match value? fuel room cs with
    | none => none
    | some (d, rest) =>
      match skip rest with
      | ']' :: rest => some ([d], rest)
      | ',' :: rest => (items? fuel room (skip rest)).map fun (ds, rest) => (d :: ds, rest)
      | _ => none

/-- Reads the members of a table, at least one, up to the closing brace. A broken name breaks the
whole table. -/
def members? : Nat → Nat → List Char → Option (Option (List (String × Datum)) × List Char)
  | 0, _, _ => none
  | fuel + 1, room, cs =>
    match cs with
    | '"' :: rest =>
      match text? rest with
      | none => none
      | some (name, rest) =>
        match skip rest with
        | ':' :: rest =>
          match value? fuel room (skip rest) with
          | none => none
          | some (d, rest) =>
            let first := name.map fun name => (name, d)
            match skip rest with
            | '\x7d' :: rest => some (first.map ([·]), rest)
            | ',' :: rest => (members? fuel room (skip rest)).map fun (ms, rest) =>
              (do return (← first) :: (← ms), rest)
            | _ => none
        | _ => none
    | _ => none

end

/-- **Reads a JSON text.** -/
def parseChars? (cs : List Char) : Option Datum :=
  match value? (2 * cs.length + 2) depthLimit (skip cs) with
  | some (d, rest) => if (skip rest).isEmpty then some d else none
  | none => none

/-- **Reads a JSON text.** -/
def parse? (text : String) : Option Datum := parseChars? text.toList

end Casewise.Json
