import Casewise.Yaml.Cursor

/-!
# Casewise.Yaml.Scalar -- the text of a scalar in each of its styles

A scalar is written plain, between single or double quotes, or as a literal or folded block. In all
styles but the literal one line breaks are folded: a single break between two words becomes a
space, and of several breaks in a row the first is dropped.

Each function here takes the cursor at the start of a scalar and gives its text and the cursor
behind it, or nothing if the scalar is malformed. The loops run on fuel, and the fuel is the text
that is left: every round but the last reads at least one character of it.
-/

namespace Casewise.Yaml

/-- How a scalar was written. -/
inductive Style where
  | plain
  | singleQuoted
  | doubleQuoted
  | literal
  | folded
deriving Repr, DecidableEq, Inhabited

/-! ## Gaps between words -/

/-- **The blanks and breaks between two words.** `leading` is what the first break adds, if there
was a break; an escaped break adds nothing. -/
structure Gap where
  blanks : List Char
  leading : Option (List Char)
  trailing : List Char

namespace Gap

def none : Gap := ⟨[], .none, []⟩

/-- The gap after an escaped break. -/
def escaped : Gap := ⟨[], some [], []⟩

/-- What a gap leaves between the words it separates. -/
def fold (g : Gap) : List Char :=
  match g.leading with
  | .none => g.blanks
  | some ['\n'] => if g.trailing.isEmpty then [' '] else g.trailing
  | some first => first ++ g.trailing

/-- Reads on through blanks and breaks. Blanks at the start of a line are dropped; a tab among
them must not stand left of column `indent`. -/
def scan (indent : Nat) : List Char → Gap → Cursor → Option (Gap × Cursor)
  | [], g, c => some (g, c)
  | _ :: fuel, g, c =>
    match c.rest with
    | [] => some (g, c)
    | ch :: _ =>
      if isBlank ch then
        match g.leading with
        | .none => scan indent fuel { g with blanks := g.blanks ++ [ch] } (c.advance 1)
        | some _ =>
          if ch == '\t' && c.column < indent then .none else scan indent fuel g (c.advance 1)
      else if isBreak ch then
        match g.leading with
        | .none => scan indent fuel ⟨[], some c.breakText, []⟩ c.newline
        | some _ => scan indent fuel { g with trailing := g.trailing ++ c.breakText } c.newline
      else some (g, c)

end Gap

/-! ## Plain scalars -/

/-- The word that a plain scalar goes on with. It ends before a gap, before a colon that a gap
follows, and in a flow collection before its indicators. There a colon right before an indicator
is an error. -/
def plainWord? (inFlow : Bool) : List Char → Option (List Char)
  | [] => some []
  | c :: rest =>
    let misplaced := match rest with
      | next :: _ => isFlowIndicator next || next == '?'
      | [] => false
    if isBlankOrBreak c then some []
    else if inFlow && c == ':' && misplaced then none
    else if (c == ':' && atGap rest) || (inFlow && isFlowIndicator c) then some []
    else (plainWord? inFlow rest).map (c :: ·)

/-- The text that parts make which were gathered with the last one first. -/
def gathered (parts : List (List Char)) : List Char := parts.reverse.flatten

/-- **Reads a plain scalar.** Outside flow collections its further lines have to stand at least in
column `indent`. The words and gaps so far are gathered in `parts`, and `gap` is the one before
the next word. The last part of the answer tells whether the scalar ended in a new line. -/
def plain? (inFlow : Bool) (indent : Nat) :
    List Char → Gap → List (List Char) → Cursor → Option (List Char × Cursor × Bool)
  | [], gap, parts, c => some (gathered parts, c, gap.leading.isSome)
  | _ :: fuel, gap, parts, c => do
    if c.atDocumentMark || c.rest.head? == some '#' then
      return (gathered parts, c, gap.leading.isSome)
    let word ← plainWord? inFlow c.rest
    if word.isEmpty then return (gathered parts, c, gap.leading.isSome)
    let parts := word :: gap.fold :: parts
    let c := c.advance word.length
    let (gap, c) ← Gap.scan indent c.rest .none c
    if !inFlow && c.column < indent then return (gathered parts, c, gap.leading.isSome)
    else plain? inFlow indent fuel gap parts c

/-! ## Quoted scalars -/

/-- A run of characters between quotes: its text, its length in the source, and whether it ended in
an escaped break. -/
structure Run where
  text : List Char
  length : Nat
  escapedBreak : Bool

namespace Run

/-- Puts a character in front that took `length` characters to write. -/
def cons (c : Char) (length : Nat) (run : Run) : Run :=
  { run with text := c :: run.text, length := length + run.length }

def stop : Run := ⟨[], 0, false⟩

/-- Reads up to a gap or the closing quote; two single quotes in a row are one. -/
def single : List Char → Run
  | '\'' :: '\'' :: rest => (single rest).cons '\'' 2
  | '\'' :: _ => stop
  | c :: rest => if isBlankOrBreak c then stop else (single rest).cons c 1
  | [] => stop

/-- The escapes of a single letter. -/
def escapes : List (Char × Char) :=
  [('0', '\x00'), ('a', '\x07'), ('b', '\x08'), ('t', '\t'), ('\t', '\t'), ('n', '\n'),
   ('v', '\x0b'), ('f', '\x0c'), ('r', '\r'), ('e', '\x1b'), (' ', ' '), ('"', '"'), ('/', '/'),
   ('\\', '\\'), ('N', '\x85'), ('_', '\xa0'), ('L', '\u2028'), ('P', '\u2029')]

/-- The number of hexadecimal digits after the letter of a code escape. -/
def codeLength : Char → Nat
  | 'x' => 2
  | 'u' => 4
  | 'U' => 8
  | _ => 0

/-- The number that hexadecimal digits denote. -/
def hexNumber? (cs : List Char) : Option Nat :=
  cs.foldlM (fun n c => (hexDigit? c).map (16 * n + ·)) 0

/-- The character that the digits of a code escape denote; a surrogate denotes none. -/
def codeChar? (length : Nat) (rest : List Char) : Option Char := do
  if rest.length < length then none
  else
    let n ← hexNumber? (rest.take length)
    if n.isValidChar then some (Char.ofNat n) else none

/-- Reads up to a gap, the closing quote or an escaped break. -/
def double? : List Char → List Char → Option Run
  | [], _ => some stop
  | _ :: _, [] => some stop
  | _ :: _, '"' :: _ => some stop
  | _ :: fuel, '\\' :: letter :: rest =>
    if isBreak letter then some ⟨[], 1, true⟩
    else
      match escapes.lookup letter with
      | some c => (double? fuel rest).map (cons c 2)
      | none =>
        let length := codeLength letter
        if length = 0 then none
        else do
          let c ← codeChar? length rest
          return cons c (2 + length) (← double? fuel (rest.drop length))
  | _ :: fuel, c :: rest =>
    if isBlankOrBreak c then some stop
    else if c == '\\' then none
    else (double? fuel rest).map (cons c 1)

end Run

/-- **Reads a quoted scalar** after its opening quote. The runs and gaps so far are gathered in
`parts`. -/
def quoted? (double : Bool) : List Char → List (List Char) → Cursor → Option (List Char × Cursor)
  | [], _, _ => none
  | _ :: fuel, parts, c => do
    if c.atDocumentMark || c.rest.isEmpty then none
    else
      let run ← if double then Run.double? c.rest c.rest else some (Run.single c.rest)
      let c := c.advance run.length
      let parts := run.text :: parts
      if run.escapedBreak then
        let c := c.newline
        let (gap, c) ← Gap.scan 0 c.rest .escaped c
        quoted? double fuel (gap.fold :: parts) c
      else if c.rest.head? == some (if double then '"' else '\'') then
        return (gathered parts, c.advance 1)
      else
        let (gap, c) ← Gap.scan 0 c.rest .none c
        quoted? double fuel (gap.fold :: parts) c

/-! ## Block scalars -/

/-- What becomes of the breaks at the end of a block scalar: all dropped, one kept, all kept. -/
inductive Chomping where
  | strip
  | clip
  | keep
deriving Repr, DecidableEq

/-- Reads one chomping mark, if there is one. -/
def chomping (c : Cursor) : Chomping × Cursor :=
  match c.rest with
  | '+' :: _ => (.keep, c.advance 1)
  | '-' :: _ => (.strip, c.advance 1)
  | _ => (.clip, c)

/-- Reads one indentation digit, if there is one; it must not be zero. -/
def indentation? (c : Cursor) : Option (Nat × Cursor) :=
  match c.rest with
  | ch :: _ =>
    if ch == '0' then none
    else if ch.isDigit then some (ch.toNat - '0'.toNat, c.advance 1)
    else some (0, c)
  | [] => some (0, c)

/-- Reads the rest of a header line: blanks, a comment, and the break. -/
def headerEnd? (c : Cursor) : Option Cursor :=
  let c := c.advanceWhile isBlank
  let c := if c.rest.head? == some '#' then c.advanceWhile (fun ch => !isBreak ch) else c
  if atBreak c.rest then some c.newline else none

/-- Reads the marks after a block indicator, in either order. -/
def blockHeader? (c : Cursor) : Option (Chomping × Nat × Cursor) := do
  match c.rest with
  | '+' :: _ | '-' :: _ =>
    let (chomp, c) := chomping c
    let (digit, c) ← indentation? c
    return (chomp, digit, ← headerEnd? c)
  | _ =>
    let (digit, c) ← indentation? c
    let (chomp, c) := if digit = 0 then (.clip, c) else chomping c
    return (chomp, digit, ← headerEnd? c)

/-- Reads indentation and empty lines. Gives the greatest column reached, the text of the breaks
and the cursor at the first line with content. An `indent` of zero is still to be found. -/
def blockBreaks? (indent : Nat) :
    List Char → Nat → List Char → Cursor → Option (Nat × List Char × Cursor)
  | fuel, widest, breaks, c =>
    let spaces := (c.rest.takeWhile (· == ' ')).length
    let c := c.advance (if indent = 0 then spaces else min spaces (indent - c.column))
    let widest := max widest c.column
    match fuel, c.rest with
    | _ :: fuel, ch :: _ =>
      if ch == '\t' && (indent = 0 || c.column < indent) then none
      else if isBreak ch then blockBreaks? indent fuel widest (breaks ++ c.breakText) c.newline
      else some (widest, breaks, c)
    | _, _ => some (widest, breaks, c)

/-- What has been read of a block scalar: its lines and what joins them, the last one first, the
break that ended the last line, the breaks of empty lines after it, and whether that line started
with a blank. -/
structure Block where
  parts : List (List Char)
  leading : List Char
  trailing : List Char
  startedBlank : Bool

/-- Reads the lines of a block scalar that stand in column `indent`. -/
def blockLines? (isLiteral : Bool) (indent : Nat) :
    List Char → Block → Cursor → Option (Block × Cursor)
  | [], b, c => some (b, c)
  | _ :: fuel, b, c =>
    if c.column ≠ indent || c.rest.isEmpty then some (b, c)
    else
      let startsBlank := match c.rest with
        | ch :: _ => isBlank ch
        | [] => false
      let folds := !isLiteral && b.leading == ['\n'] && !b.startedBlank && !startsBlank
      let joint :=
        if folds then (if b.trailing.isEmpty then [' '] else []) else b.leading
      let line := c.rest.takeWhile fun ch => !isBreak ch
      let c := c.advance line.length
      let leading := c.breakText
      let c := c.newline
      match blockBreaks? indent c.rest 0 [] c with
      | none => none
      | some (_, trailing, c) =>
        blockLines? isLiteral indent fuel
          ⟨line :: b.trailing :: joint :: b.parts, leading, trailing, startsBlank⟩ c

/-- **Reads a block scalar** after its indicator, inside a block that stands in column `parent`
(minus one outside all blocks). -/
def block? (isLiteral : Bool) (parent : Int) (c : Cursor) : Option (List Char × Cursor) := do
  let (chomp, digit, c) ← blockHeader? c
  let indent := if digit = 0 then 0 else (max parent 0).toNat + digit
  let (widest, trailing, c) ← blockBreaks? indent c.rest 0 [] c
  let indent := if indent = 0 then max (max widest (parent + 1).toNat) 1 else indent
  let (b, c) ← blockLines? isLiteral indent c.rest ⟨[], [], trailing, false⟩ c
  let ending := match chomp with
    | .strip => []
    | .clip => b.leading
    | .keep => b.leading ++ b.trailing
  return (gathered b.parts ++ ending, c)

end Casewise.Yaml
