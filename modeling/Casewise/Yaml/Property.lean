import Casewise.Yaml.Cursor
import Casewise.Yaml.Tag

/-!
# Casewise.Yaml.Property -- anchors, tags and directives

A node may carry an anchor, by which aliases refer to it, and a tag, which names its type. A tag is
written in full between angle brackets, or as a handle and a suffix; what a handle stands for is
set by directives at the head of the document. Octets that may not stand in a tag as characters
are escaped.

Each function takes the cursor behind the indicator of what it reads, and gives nothing if that is
malformed.
-/

namespace Casewise.Yaml

/-! ## Anchors -/

/-- Whether a name of an anchor may end here. -/
def endsAnchor : List Char → Bool
  | [] => true
  | c :: _ => isBlankOrBreak c || ['?', ':', ',', ']', '\x7d', '%', '@', '\x60'].contains c

/-- **Reads the name of an anchor or an alias.** -/
def anchorName? (c : Cursor) : Option (String × Cursor) :=
  let name := c.rest.takeWhile isWord
  let c := c.advance name.length
  if name.isEmpty || !endsAnchor c.rest then none else some (String.ofList name, c)

/-! ## Tags -/

/-- **A tag as written**: a handle, which a directive may expand, and a suffix. A tag in full has
no handle. -/
structure TagText where
  handle : String
  suffix : Tag
deriving Repr, DecidableEq, Inhabited

/-- The characters of a tag; in full form and in directives some more are allowed. -/
def isTagChar (full : Bool) (c : Char) : Bool :=
  isWord c || ";/?:@&=+$.!~*'()".toList.contains c || (full && (c == ',' || c == '[' || c == ']'))

/-- The number of octets that encode a character, seeing the first one; nothing if no character
starts with it. -/
def sequenceLength? (first : UInt8) : Option Nat :=
  if first < 0x80 then some 1
  else if 0xc0 ≤ first ∧ first < 0xe0 then some 2
  else if 0xe0 ≤ first ∧ first < 0xf0 then some 3
  else if 0xf0 ≤ first ∧ first < 0xf8 then some 4
  else none

/-- Reads one octet that is written as a percent sign and two digits. -/
def escapedOctet? : List Char → Option (UInt8 × List Char)
  | '%' :: a :: b :: rest => do
    return (((← hexDigit? a) * 16 + (← hexDigit? b)).toUInt8, rest)
  | _ => none

/-- Reads `n` escaped octets that go on with a character. -/
def continuation? : Nat → List Char → Option (List UInt8 × List Char)
  | 0, cs => some ([], cs)
  | n + 1, cs => do
    let (octet, cs) ← escapedOctet? cs
    if 0x80 ≤ octet ∧ octet < 0xc0 then
      let (octets, cs) ← continuation? n cs
      return (octet :: octets, cs)
    else none

/-- Reads the escaped octets of one character. Their number has to be right; whether they encode a
character is not looked at. -/
def escapedChar? (cs : List Char) : Option (List UInt8 × List Char) := do
  let (first, cs) ← escapedOctet? cs
  let length ← sequenceLength? first
  let (octets, cs) ← continuation? (length - 1) cs
  return (first :: octets, cs)

/-- Reads the octets of a tag, escaped ones decoded. The fuel is the text itself. -/
def tagOctets? (full : Bool) : List Char → List Char → Option (List UInt8 × List Char)
  | [], cs => some ([], cs)
  | _ :: fuel, cs =>
    match cs with
    | '%' :: _ => do
      let (octets, rest) ← escapedChar? cs
      let (more, rest) ← tagOctets? full fuel rest
      return (octets ++ more, rest)
    | c :: rest =>
      if isTagChar full c then
        (tagOctets? full fuel rest).map fun (octets, rest) => (c.toUInt8 :: octets, rest)
      else some ([], cs)
    | [] => some ([], [])

/-- Reads the octets of a tag at the cursor. -/
def tagSuffix? (full : Bool) (c : Cursor) : Option (List UInt8 × Cursor) := do
  let (octets, rest) ← tagOctets? full c.rest c.rest
  return (octets, c.advance (c.rest.length - rest.length))

/-- Reads what may be a handle: an exclamation mark, a word, and perhaps a second mark. Tells
whether the second mark is there. -/
def tagHandle? (c : Cursor) : Option (String × Bool × Cursor) :=
  match c.rest with
  | '!' :: rest =>
    let word := rest.takeWhile isWord
    let c := c.advance (1 + word.length)
    match c.rest with
    | '!' :: _ => some (String.ofList ('!' :: word ++ ['!']), true, c.advance 1)
    | _ => some (String.ofList ('!' :: word), false, c)
  | _ => none

/-- The parts of a tag, without regard to what follows it. -/
def tagParts? (c : Cursor) : Option (TagText × Cursor) := do
  match c.rest with
  | '!' :: '<' :: _ =>
    let (octets, c) ← tagSuffix? true (c.advance 2)
    if octets.isEmpty || c.rest.head? != some '>' then none
    else return (⟨"", .ofOctets octets⟩, c.advance 1)
  | _ =>
    let (handle, closed, c) ← tagHandle? c
    let (octets, c) ← tagSuffix? false c
    if closed then
      if octets.isEmpty then none else return (⟨handle, .ofOctets octets⟩, c)
    else
      let suffix := Tag.ofOctets (Tag.asciiOctets (handle.toList.drop 1) ++ octets)
      return (if suffix.isEmpty then ⟨"", .ofText "!"⟩ else ⟨"!", suffix⟩, c)

/-- **Reads a tag**, its exclamation mark included. A gap has to follow, or in a flow collection a
comma. -/
def tag? (inFlow : Bool) (c : Cursor) : Option (TagText × Cursor) := do
  let (tag, c) ← tagParts? c
  if atGap c.rest || (inFlow && c.rest.head? == some ',') then return (tag, c) else none

/-! ## Directives -/

/-- A line at the head of a document. -/
inductive Directive where
  | version (major minor : Nat)
  | tagHandle (handle : String) (expansion : Tag)
deriving Repr, DecidableEq, Inhabited

/-- Reads a number of at most nine digits. -/
def versionNumber? (c : Cursor) : Option (Nat × Cursor) :=
  let digits := c.rest.takeWhile Char.isDigit
  if digits.isEmpty || 9 < digits.length then none
  else
    some (digits.foldl (fun n d => 10 * n + (d.toNat - '0'.toNat)) 0, c.advance digits.length)

/-- Reads the version after its directive's name. -/
def versionDirective? (c : Cursor) : Option (Directive × Cursor) := do
  let (major, c) ← versionNumber? (c.advanceWhile isBlank)
  if c.rest.head? != some '.' then none
  else
    let (minor, c) ← versionNumber? (c.advance 1)
    return (.version major minor, c)

/-- Reads a handle and what it stands for. -/
def tagDirective? (c : Cursor) : Option (Directive × Cursor) := do
  let (handle, closed, c) ← tagHandle? (c.advanceWhile isBlank)
  if !closed && handle != "!" then none
  else if (c.rest.takeWhile isBlank).isEmpty then none
  else
    let (octets, c) ← tagSuffix? true (c.advanceWhile isBlank)
    if octets.isEmpty || !atGap c.rest then none
    else return (.tagHandle handle (.ofOctets octets), c)

/-- **Reads a directive** after its percent sign, up to the end of its line. -/
def directive? (c : Cursor) : Option (Directive × Cursor) := do
  let name := c.rest.takeWhile isWord
  let c := c.advance name.length
  if name.isEmpty || !atGap c.rest then none
  else
    let (directive, c) ←
      if name == "YAML".toList then versionDirective? c
      else if name == "TAG".toList then tagDirective? c
      else none
    let c := c.advanceWhile isBlank
    let c := if c.rest.head? == some '#' then c.advanceWhile (fun ch => !isBreak ch) else c
    if atBreak c.rest then return (directive, c.newline) else none

end Casewise.Yaml
