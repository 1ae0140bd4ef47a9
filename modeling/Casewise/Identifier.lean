/-!
# Casewise.Identifier -- the names of functions, parameters and data sets

A generated test is named by its function and its data set, joined by an underscore. The names of
functions and parameters are ordinary identifiers: an ASCII letter or an underscore, then letters,
digits and underscores, and not the underscore alone. The name of a data set only has to keep the
joined name an identifier, so it is a fragment: at least one letter, digit or underscore, and it
may start with a digit.

A name is rejected with the role it was meant for and the first rule it breaks.
-/

namespace Casewise.Identifier

/-- What a name was going to name. -/
inductive Role where
  | function
  | parameter
  | dataSet
deriving Repr, DecidableEq, Inhabited

/-- The role in words. -/
def Role.phrase : Role → String
  | .function => "test function name"
  | .parameter => "parameter name"
  | .dataSet => "data set name"

/-- Why a name is rejected. -/
inductive Fault where
  | empty
  | loneUnderscore
  | notIdentifier
  | notFragment
  | repeated
deriving Repr, DecidableEq, Inhabited

/-- The reason in words. -/
def Fault.reason : Fault → String
  | .empty => "must not be empty"
  | .loneUnderscore => "`_` alone is not a usable name"
  | .notIdentifier =>
    "must start with a letter or `_` and contain only ASCII letters, digits and `_`"
  | .notFragment => "only ASCII letters, digits and `_` are allowed"
  | .repeated => "declared more than once"

/-! ## The two rules -/

/-- An ASCII letter or an underscore. -/
def isStart (c : Char) : Bool := c.isAlpha || c == '_'

/-- An ASCII letter, a digit or an underscore. -/
def isPart (c : Char) : Bool := isStart c || c.isDigit

/-- The first rule of identifiers that a name breaks. -/
def identifierFault? (name : String) : Option Fault :=
  match name.toList with
  | [] => some .empty
  | ['_'] => some .loneUnderscore
  | c :: rest => if isStart c && rest.all isPart then none else some .notIdentifier

/-- The first rule of fragments that a name breaks. -/
def fragmentFault? (name : String) : Option Fault :=
  match name.toList with
  | [] => some .empty
  | cs => if cs.all isPart then none else some .notFragment

/-- **The first rule that a name breaks** in its role. -/
def Role.fault? : Role → String → Option Fault
  | .function, name => identifierFault? name
  | .parameter, name => identifierFault? name
  | .dataSet, name => fragmentFault? name

/-! ## Joined names -/

/-- The character between the two parts of a generated name. -/
def separator : String := "_"

/-- **The name of a generated test.** -/
def generatedName (function dataSet : String) : String := function ++ separator ++ dataSet

end Casewise.Identifier
