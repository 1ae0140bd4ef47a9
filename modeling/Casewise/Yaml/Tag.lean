/-!
# Casewise.Yaml.Tag -- the names of types

A tag names the type of a node. It is a row of octets: the characters that it is written with are
ASCII, but by escapes it can hold every octet, so not every tag is a text. Two tags are the same if
their octets are.

The standard types share the beginning of their tags (`Tag.standard`). A tag that starts with an
exclamation mark is local: it names a type that only some application knows. Local names are texts
in UTF-8; a local tag that is none names no type at all, and `Tag.isLegible` tells it from the
others.
-/

namespace Casewise.Yaml

/-- **A tag**, by its octets. -/
structure Tag where
  octets : List UInt8
deriving Repr, DecidableEq, Inhabited

namespace Tag

/-- The tag of some octets. A zero octet ends it, and what comes after does not count. -/
def ofOctets (octets : List UInt8) : Tag := ⟨octets.takeWhile (· != 0)⟩

/-- The octets of characters in ASCII. -/
def asciiOctets (cs : List Char) : List UInt8 := cs.map Char.toUInt8

/-- The tag that a text in ASCII is. -/
def ofText (text : String) : Tag := ofOctets (asciiOctets text.toList)

def isEmpty (t : Tag) : Bool := t.octets.isEmpty

instance : Append Tag := ⟨fun a b => ⟨a.octets ++ b.octets⟩⟩

/-! ## Kinds of tags -/

/-- The tag of a standard type. -/
def standard (name : String) : Tag := ofText ("tag:yaml.org,2002:" ++ name)

/-- Whether a tag is local: it starts with an exclamation mark. -/
def isLocal (t : Tag) : Bool := t.octets.head? == some '!'.toUInt8

/-- Whether a tag names a type: a local one does if its name is a text. -/
def isLegible (t : Tag) : Bool :=
  !t.isLocal || (String.fromUTF8? ⟨(t.octets.drop 1).toArray⟩).isSome

end Tag

end Casewise.Yaml
