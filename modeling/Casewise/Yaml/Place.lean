import Casewise.Source
import Casewise.Yaml.Node
import Casewise.Yaml.Resolution

/-!
# Casewise.Yaml.Place -- reading a YAML document

A `Place` is a node of a document together with what is needed to read on from there: the anchored
nodes, to resolve aliases, and how many collections may still be entered. An alias is resolved
where it is met. A document whose aliases lead back into themselves thus runs into the limit on
nesting, and one whose aliases multiply runs into a limit on how many of them may be followed,
one hundred for every mark of the document.

A field that is a text takes the text of any scalar as it stands, whatever it looks like; inside a
data set, scalars denote what they look like and names have to be texts. Where a collection is
wanted, an empty place is an empty one.
-/

namespace Casewise.Yaml

/-- How many collections may stand inside one another. -/
def depthLimit : Nat := 128

/-- **A node of a document and what is needed to read on from it.** -/
structure Place where
  /-- The anchored nodes, the last one first. -/
  anchors : List (Nat × Node)
  depth : Nat
  node : Node

/-- The node itself, or the node that it is an alias for. -/
def resolve (anchors : List (Nat × Node)) : Node → Node
  | .alias number => (anchors.lookup number).getD (.alias number)
  | node => node

/-- Whether a node is a place where nothing is written. -/
def isEmptyPlace : Node → Bool
  | .scalar _ text .plain => text.isEmpty
  | _ => false

/-! ## Following aliases -/

/-- Follows one node: an alias costs one unit of the budget. -/
def follow? (anchors : List (Nat × Node)) (budget : Nat) (node : Node) : Option (Node × Nat) :=
  match node with
  | .alias _ => if budget = 0 then none else some (resolve anchors node, budget - 1)
  | node => some (node, budget)

/-- The text of a scalar. -/
def scalarText? : Node → Option String
  | .scalar _ text _ => some text
  | _ => none

/-- What is left of a budget after reading the parts of a node that have a shape; nothing if it
does not suffice. -/
def spend? (anchors : List (Nat × Node)) : Nat → Shape → Nat → Node → Option Nat
  | 0, _, budget, node => (follow? anchors budget node).map Prod.snd
  | depth + 1, shape, budget, node => do
    let (node, budget) ← follow? anchors budget node
    match node, shape with
    | .sequence _ items, .all => items.foldlM (spend? anchors depth .all) budget
    | .sequence _ items, .each shape => items.foldlM (spend? anchors depth shape) budget
    | .mapping _ entries, .all =>
      entries.foldlM
        (fun budget e => do
          spend? anchors depth .all (← spend? anchors depth .all budget e.1) e.2)
        budget
    | .mapping _ entries, .record fields =>
      entries.foldlM
        (fun budget e => do
          let (key, budget) ← follow? anchors budget e.1
          match (scalarText? key).bind fun name => fields.lookup name with
          | some shape => spend? anchors depth shape budget e.2
          | none => return budget)
        budget
    | _, _ => return budget

/-! ## Data -/

/-- Whether a collection carries a local tag, which no datum has. -/
def hasLocalTag (p : Properties) : Bool := p.legibleTag.any Tag.isLocal

/-- **What a node denotes**, when at most `depth` collections may be entered. -/
def datum? (anchors : List (Nat × Node)) : Nat → Node → Option Datum
  | 0, node =>
    match resolve anchors node with
    | .scalar p text style => scalarDatum? p.legibleTag text style
    | _ => none
  | depth + 1, node =>
    match resolve anchors node with
    | .scalar p text style => scalarDatum? p.legibleTag text style
    | .sequence p items =>
      if hasLocalTag p then none else (items.mapM (datum? anchors depth)).map .list
    | .mapping p entries =>
      if hasLocalTag p then none
      else
        (entries.mapM fun (key, value) => do
          match ← datum? anchors depth key with
          | .text name => return (name, ← datum? anchors depth value)
          | _ => none).map .table
    | .alias _ => none

/-! ## Questions -/

namespace Place

/-- The node with its alias resolved. -/
def resolved (p : Place) : Node := resolve p.anchors p.node

/-- A node inside the collection at a place. -/
def inside (p : Place) (node : Node) : Place := { p with depth := p.depth - 1, node }

/-- The members of a mapping, whose keys have to be scalars. -/
def members? (p : Place) (entries : List (Node × Node)) : Option (List (String × Place)) :=
  entries.mapM fun e => do
    return (← scalarText? (resolve p.anchors e.1), p.inside e.2)

/-- A text that may be missing: an empty place or a plain null. The null tag allows nothing
else. -/
def optionalText? (p : Place) : Option (Option String) :=
  match p.resolved with
  | .scalar properties text style =>
    if style ≠ .plain then some (some text)
    else match properties.tag with
      | some tag =>
        if tag ≠ Tag.standard "null" then some (some text)
        else if isNull text then some none
        else none
      | none => some (if text.isEmpty || isNull text then none else some text)
  | _ => none

/-- A truth value: plain, or a literal block that is tagged as one. -/
def flag? (p : Place) : Option Bool :=
  match p.resolved with
  | .scalar _ text .plain => truth? text
  | .scalar properties text .literal =>
    if properties.tag = some (Tag.standard "bool") then truth? text else none
  | _ => none

instance : Source Place where
  text? p := scalarText? p.resolved
  optionalText? := optionalText?
  flag? := flag?
  items? p :=
    match p.resolved with
    | .sequence _ items => if p.depth = 0 then none else some (items.map p.inside)
    | node => if isEmptyPlace node then some [] else none
  members? p :=
    match p.resolved with
    | .mapping _ entries => if p.depth = 0 then none else p.members? entries
    | node => if isEmptyPlace node then some [] else none
  record? _ p :=
    match p.resolved with
    | .mapping _ entries => if p.depth = 0 then none else p.members? entries
    | _ => none
  datum? p := Yaml.datum? p.anchors p.depth p.node

/-- **The root of a document**, of which the parts that have a shape are going to be read. -/
def parse? (shape : Shape) (text : String) : Option Place := do
  let node ← Node.parse? text
  let anchors := node.anchored.reverse
  let _ ← spend? anchors depthLimit shape (100 * node.size) node
  return ⟨anchors, depthLimit, node⟩

end Place

end Casewise.Yaml
