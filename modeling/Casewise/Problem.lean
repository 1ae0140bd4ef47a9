import Casewise.Identifier

/-!
# Casewise.Problem -- everything that can be wrong with a suite

A `Problem` is a cause: which rule was broken, and by whom. Its wording, its stable code and the
advice that goes with it are functions of the cause. Problems are of two kinds. Configuration
problems lie in what the suite says; load problems lie in the file that says it.
-/

namespace Casewise

/-- **A cause of failure.** -/
inductive Problem where
  /-- A positional data set has fewer or more values than there are parameters. -/
  | arityMismatch (function dataSet : String) (expected actual : Nat)
  /-- The name of a test is taken; `dataSet` is the set that it was generated from. -/
  | duplicateName (name : String) (dataSet : Option String)
  | invalidIdentifier (identifier : String) (role : Identifier.Role) (fault : Identifier.Fault)
  | unknownParameter (function dataSet parameter : String)
  | unreadableFile (path : String)
  | invalidJson (origin : String)
  | invalidYaml (origin : String)
  | unsupportedFormat (path : String)
deriving Repr, DecidableEq, Inhabited

namespace Problem

/-- Where a problem lies: in what a suite says, or in the file that says it. -/
inductive Kind where
  | configuration
  | load
deriving Repr, DecidableEq

def Kind.name : Kind → String
  | .configuration => "Configuration"
  | .load => "Load"

def kind : Problem → Kind
  | .arityMismatch .. | .duplicateName .. | .invalidIdentifier .. | .unknownParameter .. =>
    .configuration
  | .unreadableFile _ | .invalidJson _ | .invalidYaml _ | .unsupportedFormat _ => .load

def isConfiguration (p : Problem) : Bool := p.kind == .configuration

/-- Whether the problem passes on a failure of the file system or of a parser. -/
def hasSource : Problem → Bool
  | .unreadableFile _ | .invalidJson _ | .invalidYaml _ => true
  | _ => false

/-- **The wording of a problem.** -/
def message : Problem → String
  | .arityMismatch function dataSet expected actual =>
    "data set `" ++ dataSet ++ "` of `" ++ function ++ "` supplies " ++ toString actual ++
      " value(s) for " ++ toString expected ++ " parameter(s)"
  | .duplicateName name none => "test `" ++ name ++ "` is already bound"
  | .duplicateName name (some dataSet) =>
    "test `" ++ name ++ "` (data set `" ++ dataSet ++ "`) is already bound"
  | .invalidIdentifier identifier role fault =>
    "`" ++ identifier ++ "` is not a valid " ++ role.phrase ++ ": " ++ fault.reason
  | .unknownParameter function dataSet parameter =>
    "data set `" ++ dataSet ++ "` of `" ++ function ++ "` names unknown parameter `" ++
      parameter ++ "`"
  | .unreadableFile path => "failed to read `" ++ path ++ "`"
  | .invalidJson origin => "invalid JSON in " ++ origin
  | .invalidYaml origin => "invalid YAML in " ++ origin
  | .unsupportedFormat path => "unsupported data file `" ++ path ++ "`"

/-- The code under which a problem is reported. -/
def code : Problem → String
  | .arityMismatch .. => "dado::arity_mismatch"
  | .duplicateName .. => "dado::duplicate_name"
  | .invalidIdentifier .. => "dado::invalid_identifier"
  | .unknownParameter .. => "dado::unknown_parameter"
  | .unreadableFile _ => "dado::io"
  | .invalidJson _ => "dado::json"
  | .invalidYaml _ => "dado::yaml"
  | .unsupportedFormat _ => "dado::unsupported_format"

/-- What to do about a problem. -/
def help : Problem → Option String
  | .arityMismatch .. => some "supply one value per parameter name"
  | .duplicateName .. => some "rename the data set so every generated test name is unique"
  | .unknownParameter .. =>
    some "named data sets may only use the declared parameter names"
  | .unsupportedFormat _ => some "data files must end in .json, .yaml or .yml"
  | _ => none

end Problem

end Casewise
