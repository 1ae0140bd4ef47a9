import Casewise.Yaml.Property
import Casewise.Yaml.Scalar

/-!
# Casewise.Yaml.Token -- a YAML text as tokens

Tokens make the structure of a text explicit: where blocks begin and end, which scalars are keys
and which are values. Most tokens are written down; three are not. A block begins where something
is indented deeper than the block around it, ends where something is indented less, and a key
shows only by the colon behind it.

`Scanner` is the state between two tokens. It holds the columns of the open blocks and, for each
level of flow collections, the token that may turn out to be a key. Such a key has to be followed
by its colon on the same line within 1024 octets. Where it stands at the very column of its
block it must turn out to be one, since nothing else may stand there.
-/

namespace Casewise.Yaml

/-- **A token.** -/
inductive Token where
  | directive (directive : Directive)
  | documentStart
  | documentEnd
  | sequenceStart
  | mappingStart
  | blockEnd
  | flowSequenceStart
  | flowSequenceEnd
  | flowMappingStart
  | flowMappingEnd
  | entry
  | comma
  | key
  | value
  | alias (name : String)
  | anchor (name : String)
  | tag (tag : TagText)
  | scalar (text : String) (style : Style)
deriving Repr, DecidableEq, Inhabited

/-- A token that may turn out to be a key: its number, where it stands, and whether it must turn
out to be one. -/
structure PossibleKey where
  number : Nat
  line : Nat
  offset : Nat
  column : Nat
  required : Bool
deriving Repr, Inhabited

/-- **The state between two tokens.** -/
structure Scanner where
  cursor : Cursor
  /-- How many flow collections are open. -/
  depth : Nat
  /-- The column of the innermost open block, minus one outside all blocks. -/
  indent : Int
  /-- The columns of the blocks around it. -/
  outer : List Int
  keyAllowed : Bool
  /-- The possible key of this level. -/
  candidate : Option PossibleKey
  /-- The possible keys of the levels around it. -/
  candidates : List (Option PossibleKey)
  /-- The tokens so far, the last one first, and their number. -/
  tokens : List Token
  count : Nat
deriving Inhabited

namespace Scanner

def start (cs : List Char) : Scanner :=
  { cursor := .ofChars cs, depth := 0, indent := -1, outer := [], keyAllowed := true,
    candidate := none, candidates := [], tokens := [], count := 0 }

def inFlow (s : Scanner) : Bool := 0 < s.depth

/-! ## Adding tokens -/

def emit (s : Scanner) (t : Token) : Scanner :=
  { s with tokens := t :: s.tokens, count := s.count + 1 }

/-- Adds a token in front of token number `n`. -/
def emitBefore (s : Scanner) (n : Nat) (t : Token) : Scanner :=
  let after := s.count - n
  { s with tokens := s.tokens.take after ++ t :: s.tokens.drop after, count := s.count + 1 }

/-- Adds a token for one written character. -/
def emitIndicator (s : Scanner) (t : Token) : Scanner :=
  { s.emit t with cursor := s.cursor.advance 1 }

/-! ## Blocks -/

/-- Closes blocks from the innermost outwards while they stand right of a column. -/
def closeInner (column : Int) : List Int → Scanner → Scanner
  | [], s => s
  | around :: outer, s =>
    if column < s.indent then
      closeInner column outer { s.emit .blockEnd with indent := around, outer := outer }
    else s

/-- Closes the blocks that stand right of a column. In a flow collection columns do not count. -/
def closeBlocks (column : Int) (s : Scanner) : Scanner :=
  if s.inFlow then s else closeInner column s.outer s

/-- Opens a block at a column, unless the innermost one stands there or right of it. The token
goes in front of token number `n`. -/
def openBlock (s : Scanner) (column n : Nat) (t : Token) : Scanner :=
  if s.inFlow || !(s.indent < column) then s
  else { s.emitBefore n t with indent := column, outer := s.indent :: s.outer }

/-! ## Possible keys -/

/-- Gives up a possible key, which is an error if it is required. -/
def giveUp? : Option PossibleKey → Option (Option PossibleKey)
  | some k => if k.required then none else some none
  | none => some none

/-- Gives up the possible key of this level. -/
def dropKey? (s : Scanner) : Option Scanner :=
  (giveUp? s.candidate).map fun k => { s with candidate := k }

/-- Whether a possible key is out of reach of a colon at the cursor. -/
def isStale (c : Cursor) (k : PossibleKey) : Bool := k.line < c.line || k.offset + 1024 < c.offset

/-- Gives up the possible keys out of reach. -/
def dropStale? (s : Scanner) : Option Scanner := do
  let check (k : Option PossibleKey) : Option (Option PossibleKey) :=
    if k.any (isStale s.cursor) then giveUp? k else some k
  let candidate ← check s.candidate
  let candidates ← s.candidates.mapM check
  return { s with candidate, candidates }

/-- Notes that the next token may turn out to be a key. -/
def noteKey? (s : Scanner) : Option Scanner :=
  if s.keyAllowed then do
    let s ← s.dropKey?
    let c := s.cursor
    let required := !s.inFlow && s.indent == c.column
    return { s with candidate := some ⟨s.count, c.line, c.offset, c.column, required⟩ }
  else some s

/-! ## Between tokens -/

/-- Passes over blanks, comments and breaks, and over a byte order mark at the start of a line,
which takes up a column. Tabs do not count as blanks where a key may start a block. A break outside
flow collections allows a key. -/
def skip : List Char → Scanner → Scanner
  | [], s => s
  | _ :: fuel, s =>
    let c := s.cursor
    let c := if c.column = 0 && c.rest.head? == some byteOrderMark then c.advance 1 else c
    let c := c.advanceWhile fun ch =>
      ch == ' ' || (ch == '\t' && (s.inFlow || !s.keyAllowed))
    let c := if c.rest.head? == some '#' then c.advanceWhile (fun ch => !isBreak ch) else c
    match c.rest with
    | ch :: _ =>
      if isBreak ch then
        skip fuel { s with cursor := c.newline, keyAllowed := s.keyAllowed || !s.inFlow }
      else { s with cursor := c }
    | [] => { s with cursor := c }

/-! ## One token -/

/-- Ends all blocks, which a mark at the head of a line does. -/
def endBlocks? (s : Scanner) : Option Scanner := do
  let s ← (closeBlocks (-1) s).dropKey?
  return { s with keyAllowed := false }

def documentMark? (s : Scanner) (t : Token) : Option Scanner := do
  let s ← s.endBlocks?
  return { s.emit t with cursor := s.cursor.advance 3 }

def openFlow? (s : Scanner) (t : Token) : Option Scanner := do
  let s ← s.noteKey?
  let s := { s with
    depth := s.depth + 1, candidates := s.candidate :: s.candidates, candidate := none,
    keyAllowed := true }
  return s.emitIndicator t

def closeFlow? (s : Scanner) (t : Token) : Option Scanner := do
  let s ← s.dropKey?
  let s := match s.candidates with
    | around :: candidates => { s with depth := s.depth - 1, candidate := around, candidates }
    | [] => s
  return { s with keyAllowed := false }.emitIndicator t

def comma? (s : Scanner) : Option Scanner := do
  let s ← s.dropKey?
  return { s with keyAllowed := true }.emitIndicator .comma

/-- The dash of an entry. In a flow collection it is left to the parser to object. -/
def entry? (s : Scanner) : Option Scanner := do
  if !s.inFlow && !s.keyAllowed then none
  else
    let s ← (s.openBlock s.cursor.column s.count .sequenceStart).dropKey?
    return { s with keyAllowed := true }.emitIndicator .entry

/-- The question mark of a key. -/
def key? (s : Scanner) : Option Scanner := do
  if !s.inFlow && !s.keyAllowed then none
  else
    let s ← (s.openBlock s.cursor.column s.count .mappingStart).dropKey?
    return { s with keyAllowed := !s.inFlow }.emitIndicator .key

/-- The colon of a value. It makes the possible key of this level a key. -/
def value? (s : Scanner) : Option Scanner :=
  match s.candidate with
  | some k =>
    let s := (s.emitBefore k.number .key).openBlock k.column k.number .mappingStart
    some ({ s with candidate := none, keyAllowed := false }.emitIndicator .value)
  | none =>
    if !s.inFlow && !s.keyAllowed then none
    else
      let s := s.openBlock s.cursor.column s.count .mappingStart
      some ({ s with keyAllowed := !s.inFlow }.emitIndicator .value)

/-- A token that may be a key and is read by `read`. -/
def keyToken? (s : Scanner) (read : Cursor → Option (Token × Cursor)) : Option Scanner := do
  let s ← s.noteKey?
  let (t, c) ← read s.cursor
  return { s.emit t with cursor := c, keyAllowed := false }

def quotedToken? (double : Bool) (style : Style) (c : Cursor) : Option (Token × Cursor) :=
  (quoted? double c.rest [] (c.advance 1)).map fun (text, c) =>
    (.scalar (String.ofList text) style, c)

def blockToken? (s : Scanner) (isLiteral : Bool) : Option Scanner := do
  let s ← s.dropKey?
  let (text, c) ← block? isLiteral s.indent (s.cursor.advance 1)
  let style : Style := if isLiteral then .literal else .folded
  return { s.emit (.scalar (String.ofList text) style) with cursor := c, keyAllowed := true }

def plainToken? (s : Scanner) : Option Scanner := do
  let s ← s.noteKey?
  let (text, c, broken) ←
    plain? s.inFlow (s.indent + 1).toNat s.cursor.rest .none [] s.cursor
  return { s.emit (.scalar (String.ofList text) .plain) with cursor := c, keyAllowed := broken }

/-- Whether a plain scalar may start with `c`, seeing what follows. -/
def startsPlain (inFlow : Bool) (c : Char) (rest : List Char) : Bool :=
  if c == '-' then !(rest.head?.any isBlank)
  else if c == '?' || c == ':' then !inFlow && !atGap rest
  else !(isBlankOrBreak c || isFlowIndicator c || "#&*!|>'\"%@\x60".toList.contains c)

/-- **Reads the next token**, the cursor standing at its first character `ch`. -/
def token? (s : Scanner) (ch : Char) (rest : List Char) : Option Scanner :=
  if s.cursor.column == 0 && ch == '%' then do
    let s ← s.endBlocks?
    let (d, c) ← directive? (s.cursor.advance 1)
    return { s.emit (.directive d) with cursor := c }
  else if s.cursor.atDocumentMark then
    s.documentMark? (if ch == '-' then .documentStart else .documentEnd)
  else if ch == '[' then s.openFlow? .flowSequenceStart
  else if ch == '\x7b' then s.openFlow? .flowMappingStart
  else if ch == ']' then s.closeFlow? .flowSequenceEnd
  else if ch == '\x7d' then s.closeFlow? .flowMappingEnd
  else if ch == ',' then s.comma?
  else if ch == '-' && atGap rest then s.entry?
  else if ch == '?' && (s.inFlow || atGap rest) then s.key?
  else if ch == ':' && (s.inFlow || atGap rest) then s.value?
  else if ch == '*' then
    s.keyToken? fun c => (anchorName? (c.advance 1)).map fun (name, c) => (.alias name, c)
  else if ch == '&' then
    s.keyToken? fun c => (anchorName? (c.advance 1)).map fun (name, c) => (.anchor name, c)
  else if ch == '!' then
    s.keyToken? fun c => (tag? s.inFlow c).map fun (tag, c) => (.tag tag, c)
  else if ch == '|' && !s.inFlow then s.blockToken? true
  else if ch == '>' && !s.inFlow then s.blockToken? false
  else if ch == '\'' then s.keyToken? (quotedToken? false .singleQuoted)
  else if ch == '"' then s.keyToken? (quotedToken? true .doubleQuoted)
  else if startsPlain s.inFlow ch rest then s.plainToken?
  else none

/-- Reads tokens to the end of the text. -/
def run : Nat → Scanner → Option (List Token)
  | 0, _ => none
  | fuel + 1, s => do
    let s ← (skip s.cursor.rest s).dropStale?
    let s := closeBlocks s.cursor.column s
    match s.cursor.rest with
    | [] => return (← (closeBlocks (-1) s).dropKey?).tokens.reverse
    | ch :: rest => run fuel (← s.token? ch rest)

end Scanner

/-- **The tokens of a text**, or nothing if the text is malformed. -/
def tokens? (cs : List Char) : Option (List Token) :=
  if cs.all isAllowed then Scanner.run (cs.length + 1) (.start cs) else none

end Casewise.Yaml
