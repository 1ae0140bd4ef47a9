import Casewise.Datum.Basic
import Casewise.Decimal.Nearest
import Casewise.Yaml.Scalar
import Casewise.Yaml.Tag

/-!
# Casewise.Yaml.Resolution -- what a scalar denotes

A scalar that is neither plain nor tagged is a text. A plain one denotes null, a truth value, an
integer or a real if it looks like one, and is a text otherwise. Integers are decimal without
superfluous zeros, or carry one of the marks `0x`, `0o` and `0b`; digits with superfluous zeros are
a text. An integer too wide for a word of sixty-four bits denotes nothing, unless it is too wide
for a hundred and twenty-eight as well: then it is a real. A real beyond every double is a text.

A standard tag forces the type and leaves nothing if the text does not fit it. Under a local tag a
scalar denotes nothing that a datum could be. A tag that names no type does not count.
-/

namespace Casewise.Yaml

/-! ## Nulls and truth values -/

def isNull (text : String) : Bool := ["null", "Null", "NULL", "~"].contains text

def truth? (text : String) : Option Bool :=
  if ["true", "True", "TRUE"].contains text then some true
  else if ["false", "False", "FALSE"].contains text then some false
  else none

/-! ## Integers -/

/-- The value of a digit to a base of at most sixteen. -/
def digitTo? (base : Nat) (c : Char) : Option Nat :=
  (hexDigit? c).filter (· < base)

/-- The number that digits to a base denote; there has to be one. -/
def number? (base : Nat) (cs : List Char) : Option Nat :=
  if cs.isEmpty then none else cs.foldlM (fun n c => (digitTo? base c).map (base * n + ·)) 0

/-- Digits with a superfluous zero, under any sign. -/
def hasLeadingZero (cs : List Char) : Bool :=
  let body := match cs with
    | '-' :: rest | '+' :: rest => rest
    | cs => cs
  match body with
  | '0' :: rest => !rest.isEmpty && rest.all Char.isDigit
  | _ => false

/-- The size of an integer without its sign: marked digits, or decimal ones. -/
def magnitude? : List Char → Option Nat
  | '0' :: 'x' :: rest => number? 16 rest
  | '0' :: 'o' :: rest => number? 8 rest
  | '0' :: 'b' :: rest => number? 2 rest
  | cs => if hasLeadingZero cs then none else number? 10 cs

/-- What a text says as an integer. -/
inductive Integer where
  | word (value : Int)
  | tooWide
deriving Repr, DecidableEq

/-- The integer that digits without a sign denote. -/
def unsigned? (cs : List Char) : Option Integer := do
  let n ← magnitude? cs
  if n < Nat.pow 2 64 then some (.word n)
  else if n < Nat.pow 2 128 then some .tooWide
  else none

/-- **The integer of a text**, if it looks like one that fits a hundred and twenty-eight bits. -/
def integer? (cs : List Char) : Option Integer :=
  match cs with
  | '-' :: rest => do
    let n ← magnitude? rest
    if n ≤ Nat.pow 2 63 then some (.word (-n))
    else if n ≤ Nat.pow 2 127 then some .tooWide
    else none
  | '+' :: rest => unsigned? rest
  | cs => unsigned? cs

/-! ## Reals -/

/-- The value of a decimal digit. -/
def digitValue (c : Char) : Nat := c.toNat - '0'.toNat

/-- An exponent: a mark, perhaps a sign, and digits up to the end. None at all is zero. -/
def exponent? (cs : List Char) : Option Int :=
  match cs with
  | [] => some 0
  | mark :: rest =>
    if mark != 'e' && mark != 'E' then none
    else match rest with
      | '-' :: rest => (number? 10 rest).map fun n => -(n : Int)
      | '+' :: rest => (number? 10 rest).map fun n => (n : Int)
      | rest => (number? 10 rest).map fun n => (n : Int)

/-- The nearest double to an unsigned decimal with a point or an exponent or neither. -/
def decimal? (cs : List Char) : Option Float := do
  let whole := cs.takeWhile Char.isDigit
  let rest := cs.dropWhile Char.isDigit
  let (fraction, rest) := match rest with
    | '.' :: rest => (rest.takeWhile Char.isDigit, rest.dropWhile Char.isDigit)
    | rest => ([], rest)
  let digits := whole ++ fraction
  if digits.isEmpty then none
  else
    let exponent ← exponent? rest
    let coefficient := digits.foldl (fun n c => 10 * n + digitValue c) 0
    Decimal.nearest? coefficient (exponent - fraction.length)

/-- The words for the reals that no digits denote. -/
def infinityWords : List String := [".inf", ".Inf", ".INF"]

def nanWords : List String := [".nan", ".NaN", ".NAN"]

/-- **The real of a text**, if it looks like one and is not beyond every double. -/
def real? (text : String) : Option Float :=
  let infinity : Float := 1.0 / 0.0
  if nanWords.contains text then some (0.0 / 0.0)
  else match text.toList with
    | '-' :: rest =>
      if infinityWords.contains (String.ofList rest) then some (-infinity)
      else (decimal? rest).map fun x => -x
    | '+' :: rest =>
      if infinityWords.contains (String.ofList rest) then some infinity else decimal? rest
    | cs => if infinityWords.contains text then some infinity else decimal? cs

/-! ## Scalars -/

/-- **What a plain scalar denotes**; nothing if it is an integer that is too wide. -/
def plainDatum? (text : String) : Option Datum :=
  if text.isEmpty || isNull text then some .null
  else match truth? text with
    | some b => some (.truth b)
    | none =>
      match integer? text.toList with
      | some (.word i) => some (.int i)
      | some .tooWide => none
      | none =>
        if hasLeadingZero text.toList then some (.text text)
        else match real? text with
          | some x => some (.real x)
          | none => some (.text text)

/-- **What a scalar denotes** under its tag, if that names a type, and in its style. -/
def scalarDatum? (tag : Option Tag) (text : String) (style : Style) : Option Datum :=
  match tag with
  | none => if style = .plain then plainDatum? text else some (.text text)
  | some tag =>
    if tag.isLocal then none
    else if tag = Tag.standard "bool" then (truth? text).map .truth
    else if tag = Tag.standard "int" then
      match integer? text.toList with
      | some (.word i) => some (.int i)
      | _ => none
    else if tag = Tag.standard "float" then (real? text).map .real
    else if tag = Tag.standard "null" then (if isNull text then some .null else none)
    else some (.text text)

end Casewise.Yaml
