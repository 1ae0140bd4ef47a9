import Casewise.Yaml.Token

/-!
# Casewise.Yaml.Node -- a YAML document as a tree

The tokens of a document make a tree of scalars, sequences, mappings and aliases. Aliases stay in
the tree: they are resolved when a node is read, since what they stand for may contain them.

An anchor is known by a number, the count of the distinct anchor names before it. Naming an anchor
a second time takes the count as it stands, so a later new name may come to share its number; an
alias then stands for the last node, in the order in which nodes begin, that bears the number.
`Node.anchored` lists the nodes that bear one.

A text holds one document. An empty text is a document too: one empty plain scalar.
-/

namespace Casewise.Yaml

/-- What a node carries besides its content: the number of its anchor, and its tag with the handle
expanded. -/
structure Properties where
  anchor : Option Nat
  tag : Option Tag
deriving Repr, DecidableEq, Inhabited

/-- **A node of a document.** -/
inductive Node where
  | alias (number : Nat)
  | scalar (properties : Properties) (text : String) (style : Style)
  | sequence (properties : Properties) (items : List Node)
  | mapping (properties : Properties) (entries : List (Node × Node))

namespace Properties

/-- The tag of a node, unless it names no type. -/
def legibleTag (p : Properties) : Option Tag := p.tag.filter Tag.isLegible

end Properties

namespace Node

def noProperties : Properties := ⟨none, none⟩

/-- Where nothing is written, an empty plain scalar is understood. -/
def empty (properties : Properties) : Node := .scalar properties "" .plain

instance : Inhabited Node := ⟨empty noProperties⟩

/-! ## Anchored nodes and size -/

/-- The entry of a node under its anchor, if it has one. -/
def Properties.entry (p : Properties) (node : Node) : List (Nat × Node) :=
  match p.anchor with
  | some number => [(number, node)]
  | none => []

mutual

/-- **The nodes with an anchor**, in the order in which they begin. -/
def anchored : Node → List (Nat × Node)
  | .alias _ => []
  | .scalar p text style => Properties.entry p (.scalar p text style)
  | .sequence p items => Properties.entry p (.sequence p items) ++ anchoredItems items
  | .mapping p entries => Properties.entry p (.mapping p entries) ++ anchoredEntries entries

def anchoredItems : List Node → List (Nat × Node)
  | [] => []
  | node :: rest => anchored node ++ anchoredItems rest

def anchoredEntries : List (Node × Node) → List (Nat × Node)
  | [] => []
  | (key, value) :: rest => anchored key ++ anchored value ++ anchoredEntries rest

end

mutual

/-- The number of marks in a node: one for a scalar or alias, two for the ends of a collection. -/
def size : Node → Nat
  | .alias _ | .scalar .. => 1
  | .sequence _ items => 2 + sizeItems items
  | .mapping _ entries => 2 + sizeEntries entries

def sizeItems : List Node → Nat
  | [] => 0
  | node :: rest => size node + sizeItems rest

def sizeEntries : List (Node × Node) → Nat
  | [] => 0
  | (key, value) :: rest => size key + size value + sizeEntries rest

end

end Node

/-! ## Directives -/

/-- What a tag handle stands for when no directive says so. -/
def defaultHandles : List (String × Tag) := [("!", .ofText "!"), ("!!", .standard "")]

/-- The directives at the head of a document: whether a version was given, and the handles. -/
structure Prologue where
  versioned : Bool
  handles : List (String × Tag)
deriving Inhabited

namespace Prologue

/-- Takes one directive in. A version may be given once and must be 1.1 or 1.2; a handle may be
set once. -/
def add? (p : Prologue) : Directive → Option Prologue
  | .version major minor =>
    if p.versioned || major != 1 || (minor != 1 && minor != 2) then none
    else some { p with versioned := true }
  | .tagHandle handle expansion =>
    if (p.handles.lookup handle).isSome then none
    else some { p with handles := p.handles ++ [(handle, expansion)] }

/-- Takes in the directives that a list of tokens starts with. -/
def read? : Prologue → List Token → Option (Prologue × List Token)
  | p, .directive d :: rest => do read? (← p.add? d) rest
  | p, rest => some (p, rest)

end Prologue

/-- The tag that a written tag stands for. A handle has to be known. -/
def expandTag? (handles : List (String × Tag)) (tag : TagText) : Option Tag :=
  if tag.handle.isEmpty then some tag.suffix
  else ((handles ++ defaultHandles).lookup tag.handle).map (· ++ tag.suffix)

/-! ## From tokens to nodes -/

/-- **What the parser carries along**: the tokens to come, the handles, and the number of every
anchor name so far. -/
structure Parsing where
  tokens : List Token
  handles : List (String × Tag)
  anchors : List (String × Nat)

/-- A step of the parser, which may fail. -/
abbrev Parser (α : Type) := StateT Parsing Option α

namespace Parser

def fail {α : Type} : Parser α := fun _ => none

/-- The next token. -/
def peek : Parser (Option Token) := fun s => some (s.tokens.head?, s)

/-- Passes over one token. -/
def drop : Parser Unit := fun s => some ((), { s with tokens := s.tokens.drop 1 })

/-- The number of an anchor: how many distinct names were seen before. -/
def number (name : String) : Parser Nat := fun s =>
  let names := s.anchors.filter fun a => a.1 != name
  some (s.anchors.length, { s with anchors := (name, s.anchors.length) :: names })

/-- The number that an alias refers to; its name has to be known. -/
def refer (name : String) : Parser Nat := fun s =>
  (s.anchors.lookup name).map (·, s)

def expand (tag : TagText) : Parser Tag := fun s =>
  (expandTag? s.handles tag).map (·, s)

/-- The anchor and the tag in front of a node, in either order. -/
def properties : Parser Properties := do
  match ← peek with
  | some (.anchor name) =>
    drop
    let anchor ← number name
    match ← peek with
    | some (.tag tag) =>
      drop
      return ⟨some anchor, some (← expand tag)⟩
    | _ => return ⟨some anchor, none⟩
  | some (.tag tag) =>
    drop
    match ← peek with
    | some (.anchor name) =>
      drop
      let expanded ← expand tag
      return ⟨some (← number name), some expanded⟩
    | _ => return ⟨none, some (← expand tag)⟩
  | _ => return Node.noProperties

/-- Whether a node is missing in a block mapping: the next token starts or ends something of the
mapping itself. -/
def endsBlockPart : Option Token → Bool
  | some .key | some .value | some .blockEnd => true
  | _ => false

/-- Whether an entry of a block sequence is missing. -/
def endsEntry : Option Token → Bool
  | some .entry | some .blockEnd => true
  | _ => false

/-- Whether an entry of a sequence without a block of its own is missing. -/
def endsBareEntry : Option Token → Bool
  | some .entry | some .key | some .value | some .blockEnd => true
  | _ => false

/-- Whether a part of a flow collection is missing that `closing` ends. -/
def endsFlowPart (closing : Token) : Option Token → Bool
  | some .comma => true
  | some t => t == closing
  | none => false

mutual

/-- **Reads a node.** Blocks are allowed where `inBlock` says so, and a sequence without a block of
its own where `bare` says so. -/
def node (inBlock bare : Bool) : Nat → Parser Node
  | 0 => fail
  | fuel + 1 => do
    match ← peek with
    | some (.alias name) =>
      drop
      return .alias (← refer name)
    | _ =>
      let p ← properties
      match ← peek with
      | some .entry =>
        if bare then return .sequence p (← bareEntries fuel)
        else if p == Node.noProperties then fail
        else return .empty p
      | some (.scalar text style) =>
        drop
        return .scalar p text style
      | some .flowSequenceStart =>
        drop
        return .sequence p (← flowItems true fuel)
      | some .flowMappingStart =>
        drop
        return .mapping p (← flowEntries true fuel)
      | some .sequenceStart =>
        if inBlock then
          drop
          return .sequence p (← blockEntries fuel)
        else if p == Node.noProperties then fail
        else return .empty p
      | some .mappingStart =>
        if inBlock then
          drop
          return .mapping p (← blockMembers fuel)
        else if p == Node.noProperties then fail
        else return .empty p
      | _ => if p == Node.noProperties then fail else return .empty p

/-- Reads a node, or an empty one if it is missing. -/
def nodeUnless (missing : Option Token → Bool) (inBlock bare : Bool) : Nat → Parser Node
  | 0 => fail
  | fuel + 1 => do
    if missing (← peek) then return .empty Node.noProperties
    else node inBlock bare fuel

/-- The entries of a block sequence, up to its end. -/
def blockEntries : Nat → Parser (List Node)
  | 0 => fail
  | fuel + 1 => do
    match ← peek with
    | some .entry =>
      drop
      let item ← nodeUnless endsEntry true false fuel
      return item :: (← blockEntries fuel)
    | some .blockEnd =>
      drop
      return []
    | _ => fail

/-- The entries of a sequence without a block of its own, which ends where no entry follows. -/
def bareEntries : Nat → Parser (List Node)
  | 0 => fail
  | fuel + 1 => do
    match ← peek with
    | some .entry =>
      drop
      let item ← nodeUnless endsBareEntry true false fuel
      return item :: (← bareEntries fuel)
    | _ => return []

/-- The value of a block mapping's member, or an empty one if there is no colon. -/
def blockValue : Nat → Parser Node
  | 0 => fail
  | fuel + 1 => do
    match ← peek with
    | some .value =>
      drop
      nodeUnless endsBlockPart true true fuel
    | _ => return .empty Node.noProperties

/-- The members of a block mapping, up to its end. -/
def blockMembers : Nat → Parser (List (Node × Node))
  | 0 => fail
  | fuel + 1 => do
    match ← peek with
    | some .key =>
      drop
      let key ← nodeUnless endsBlockPart true true fuel
      let value ← blockValue fuel
      return (key, value) :: (← blockMembers fuel)
    | some .blockEnd =>
      drop
      return []
    | _ => fail

/-- Passes over the comma between two parts of a flow collection. -/
def flowComma (first : Bool) : Parser Unit := do
  if first then return ()
  else match ← peek with
    | some .comma => drop
    | _ => fail

/-- The value of a part of a flow collection, or an empty one. -/
def flowValue (closing : Token) : Nat → Parser Node
  | 0 => fail
  | fuel + 1 => do
    match ← peek with
    | some .value =>
      drop
      nodeUnless (endsFlowPart closing) false false fuel
    | _ => return .empty Node.noProperties

/-- The items of a flow sequence, up to its end. An item with a key is a mapping of one member. -/
def flowItems (first : Bool) : Nat → Parser (List Node)
  | 0 => fail
  | fuel + 1 => do
    match ← peek with
    | some .flowSequenceEnd =>
      drop
      return []
    | _ =>
      flowComma first
      match ← peek with
      | some .flowSequenceEnd =>
        drop
        return []
      | some .key =>
        drop
        let key ← flowPairKey fuel
        let value ← flowValue .flowSequenceEnd fuel
        let item := Node.mapping Node.noProperties [(key, value)]
        return item :: (← flowItems false fuel)
      | _ =>
        let item ← node false false fuel
        return item :: (← flowItems false fuel)

/-- The key of a single member in a flow sequence. Where it is missing, the token that shows so is
passed over. -/
def flowPairKey : Nat → Parser Node
  | 0 => fail
  | fuel + 1 => do
    match ← peek with
    | some .value | some .comma | some .flowSequenceEnd =>
      drop
      return .empty Node.noProperties
    | _ => node false false fuel

/-- The members of a flow mapping, up to its end. A member without a key has no value. -/
def flowEntries (first : Bool) : Nat → Parser (List (Node × Node))
  | 0 => fail
  | fuel + 1 => do
    match ← peek with
    | some .flowMappingEnd =>
      drop
      return []
    | _ =>
      flowComma first
      match ← peek with
      | some .flowMappingEnd =>
        drop
        return []
      | some .key =>
        drop
        let key ← nodeUnless (fun t => t == some .value || endsFlowPart .flowMappingEnd t)
          false false fuel
        let value ← flowValue .flowMappingEnd fuel
        return (key, value) :: (← flowEntries false fuel)
      | _ =>
        let key ← node false false fuel
        return (key, .empty Node.noProperties) :: (← flowEntries false fuel)

end

end Parser

/-! ## Documents -/

/-- The content of a document after its mark: a node, or an empty one. -/
def Parser.content (fuel : Nat) : Parser Node :=
  Parser.nodeUnless
    (fun t => match t with
      | none | some (.directive _) | some .documentStart | some .documentEnd => true
      | _ => false)
    true false fuel

/-- Whether only ends of documents follow. -/
def onlyEnds (tokens : List Token) : Bool := tokens.all (· == .documentEnd)

/-- **The document that tokens make**, if they make exactly one. -/
def Node.ofTokens? (tokens : List Token) : Option Node :=
  let fuel := 4 * tokens.length + 4
  match tokens with
  | [] => some (.empty Node.noProperties)
  | .directive _ :: _ | .documentStart :: _ => do
    let (prologue, rest) ← Prologue.read? ⟨false, []⟩ tokens
    match rest with
    | .documentStart :: rest =>
      let (node, s) ← (Parser.content fuel).run ⟨rest, prologue.handles, []⟩
      if onlyEnds s.tokens then return node else none
    | _ => none
  | _ => do
    let (node, s) ← (Parser.node true false fuel).run ⟨tokens, [], []⟩
    if onlyEnds s.tokens then return node else none

/-- **The document of a text**, if it is well formed and holds exactly one. -/
def Node.parse? (text : String) : Option Node := do
  Node.ofTokens? (← tokens? text.toList)

end Casewise.Yaml
