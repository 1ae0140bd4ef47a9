/-!
# Casewise.Path -- file paths as texts

A path is a text of pieces between slashes. Empty pieces and single dots lead nowhere, two dots
lead back. The name of a file is the last piece that leads somewhere, unless it leads back; the
extension is what follows the last dot of the name, if something precedes that dot.
-/

namespace Casewise.Path

/-- The pieces between the slashes; there is always one. -/
def split : List Char → List (List Char)
  | [] => [[]]
  | '/' :: rest => [] :: split rest
  | c :: rest =>
    match split rest with
    | piece :: pieces => (c :: piece) :: pieces
    | [] => [[c]]

/-- The pieces of a path. -/
def pieces (path : String) : List String := (split path.toList).map String.ofList

/-- Whether a piece leads nowhere. -/
def isIdle (piece : String) : Bool := piece == "" || piece == "."

/-- The name of the file that a path leads to. -/
def fileName? (path : String) : Option String :=
  match ((pieces path).filter fun piece => !isIdle piece).getLast? with
  | some ".." | none => none
  | some name => some name

/-- **The extension of a file name**: what follows its last dot, unless nothing precedes it. -/
def extension? (name : String) : Option String :=
  let reversed := name.toList.reverse
  let ending := reversed.takeWhile (· != '.')
  match reversed.dropWhile (· != '.') with
  | '.' :: _ :: _ => some (String.ofList ending.reverse)
  | _ => none

/-- A path that leads on to a file in a directory. -/
def join (directory name : String) : String :=
  if directory.toList.getLast? == some '/' then directory ++ name else directory ++ "/" ++ name

/-- **The order of paths**, piece by piece: whether one list of names stands before another or is
the same. A directory's files thus stand where the directory does. -/
def inOrder : List String → List String → Bool
  | [], _ => true
  | _ :: _, [] => false
  | a :: as, b :: bs => if a = b then inOrder as bs else decide (a < b)

end Casewise.Path
