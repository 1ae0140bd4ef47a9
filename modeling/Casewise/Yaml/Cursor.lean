/-!
# Casewise.Yaml.Cursor -- a place in a YAML text

YAML is read with an eye on where things stand: the column of a character decides which block it
belongs to, its line and how far back it lies whether it can still be a key. A `Cursor` is the rest
of the text together with the line, the column and the offset it has reached. A column counts
characters; an offset counts octets, as the text is encoded in UTF-8.

This module also holds the character classes of YAML. There are five line breaks; a carriage
return and a line feed in a row are one of them. Breaks inside a scalar are normalised: all but the
line and the paragraph separator of Unicode count as a line feed.
-/

namespace Casewise.Yaml

/-! ## Character classes -/

/-- The line breaks: line feed, carriage return, next line, line and paragraph separator. -/
def isBreak (c : Char) : Bool :=
  c == '\n' || c == '\r' || c == '\x85' || c == '\u2028' || c == '\u2029'

/-- A space or a tab. -/
def isBlank (c : Char) : Bool := c == ' ' || c == '\t'

def isBlankOrBreak (c : Char) : Bool := isBlank c || isBreak c

/-- Whether a blank, a break or the end of the text comes next. -/
def atGap : List Char → Bool
  | [] => true
  | c :: _ => isBlankOrBreak c

/-- Whether a break or the end of the text comes next. -/
def atBreak : List Char → Bool
  | [] => true
  | c :: _ => isBreak c

/-- The characters of anchors, directive names and tag handles. -/
def isWord (c : Char) : Bool := c.isAlphanum || c == '_' || c == '-'

/-- The indicators of flow collections. -/
def isFlowIndicator (c : Char) : Bool :=
  c == ',' || c == '[' || c == ']' || c == '\x7b' || c == '\x7d'

/-- The mark that may stand at the start of a line between two tokens. -/
def byteOrderMark : Char := '\ufeff'

/-- The characters that a YAML text may consist of: no controls but tab and the breaks, and no
code point that Unicode sets aside as not a character at the end of its first plane. -/
def isAllowed (c : Char) : Bool :=
  let n := c.toNat
  n == 0x09 || n == 0x0a || n == 0x0d || (0x20 ≤ n && n ≤ 0x7e) || n == 0x85 ||
    (0xa0 ≤ n && n ≤ 0xd7ff) || (0xe000 ≤ n && n ≤ 0xfffd) || 0x10000 ≤ n

/-- The value of a hexadecimal digit in either case. -/
def hexDigit? (c : Char) : Option Nat :=
  if '0' ≤ c ∧ c ≤ '9' then some (c.toNat - '0'.toNat)
  else if 'a' ≤ c ∧ c ≤ 'f' then some (c.toNat - 'a'.toNat + 10)
  else if 'A' ≤ c ∧ c ≤ 'F' then some (c.toNat - 'A'.toNat + 10)
  else none

/-! ## The cursor -/

/-- **A place in a text**: what is left, and how much came before. -/
structure Cursor where
  rest : List Char
  /-- How many octets came before. -/
  offset : Nat
  line : Nat
  /-- How many characters of the line came before. -/
  column : Nat
deriving Repr, Inhabited

namespace Cursor

def ofChars (cs : List Char) : Cursor := ⟨cs, 0, 0, 0⟩

/-- The number of octets that encode a text. -/
def octets (cs : List Char) : Nat := cs.foldl (fun n ch => n + ch.utf8Size) 0

/-- Passes over `n` characters of the line. -/
def advance (c : Cursor) (n : Nat) : Cursor :=
  ⟨c.rest.drop n, c.offset + octets (c.rest.take n), c.line, c.column + n⟩

/-- Passes over the characters of a class that holds no breaks. -/
def advanceWhile (c : Cursor) (p : Char → Bool) : Cursor :=
  c.advance (c.rest.takeWhile p).length

/-- Passes over a line break, if one comes next. -/
def newline (c : Cursor) : Cursor :=
  match c.rest with
  | '\r' :: '\n' :: rest => ⟨rest, c.offset + 2, c.line + 1, 0⟩
  | ch :: rest => if isBreak ch then ⟨rest, c.offset + ch.utf8Size, c.line + 1, 0⟩ else c
  | [] => c

/-- What a line break adds to a scalar; nothing if no break comes next. -/
def breakText (c : Cursor) : List Char :=
  match c.rest with
  | ch :: _ =>
    if ch == '\u2028' || ch == '\u2029' then [ch]
    else if isBreak ch then ['\n']
    else []
  | [] => []

/-- Whether the line starts here with one of the marks that end a document. -/
def atDocumentMark (c : Cursor) : Bool :=
  c.column == 0 &&
    match c.rest with
    | '-' :: '-' :: '-' :: rest | '.' :: '.' :: '.' :: rest => atGap rest
    | _ => false

end Cursor

end Casewise.Yaml
