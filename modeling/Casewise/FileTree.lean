import Casewise.Path

/-!
# Casewise.FileTree -- directories and files

A file tree is what a program finds on disk, as a value: directories with named entries and files
with bytes. A file that cannot be read is there like any other, without bytes, so it is found by a
walk and fails only when it is loaded. `FileTree.find?` follows a path through a tree. A piece of a
path can only be followed in a directory, even one that leads nowhere, so `a/` is not a way to write
the file `a`.

What a program needs of a tree is only what it finds under a path, so the rest of the library
works on `Files`, any function from paths to entries.
-/

namespace Casewise

/-- **A directory or a file.** The entries of a directory stand in no particular order; the content
of a file is there if the file can be read. -/
inductive FileTree where
  | file (content : Option ByteArray)
  | directory (entries : List (String × FileTree))

/-- What is found under a path. -/
abbrev Files := String → Option FileTree

namespace FileTree

instance : Inhabited FileTree := ⟨.directory []⟩

/-- The entries of a directory. -/
def entries? : FileTree → Option (List (String × FileTree))
  | .directory entries => some entries
  | .file _ => none

/-- The content of a file as a text, if it can be read and is well formed. -/
def text? : FileTree → Option String
  | .file content => content.bind fun bytes => String.fromUTF8? bytes
  | .directory _ => none

/-! ## Following paths -/

/-- Follows one piece. The way so far is given from its end: the tree reached, then the directory
around it, and so on. Nothing lies around the root. -/
def step? (piece : String) : List FileTree → Option (List FileTree)
  | [] => none
  | here :: around => do
    let entries ← here.entries?
    if Path.isIdle piece then return here :: around
    else if piece == ".." then (if around.isEmpty then none else return around)
    else return (← entries.lookup piece) :: here :: around

/-- **What a tree holds under a path** that starts at its root. -/
def find? (tree : FileTree) (path : String) : Option FileTree :=
  if path.isEmpty || path.toList.head? == some '/' then none
  else ((Path.pieces path).foldlM (fun way piece => step? piece way) [tree]).bind List.head?

/-! ## Walking -/

mutual

/-- The files of a tree, each with the names that lead to it. -/
def files : FileTree → List (List String × FileTree)
  | .file content => [([], .file content)]
  | .directory entries => filesOf entries

def filesOf : List (String × FileTree) → List (List String × FileTree)
  | [] => []
  | (name, tree) :: rest => (files tree).map (fun f => (name :: f.1, f.2)) ++ filesOf rest

end

/-- A tree in the place of another; an empty directory does not displace a directory. -/
def inPlaceOf (content old : FileTree) : FileTree :=
  match content, old with
  | .directory [], .directory entries => .directory entries
  | _, _ => content

/-- Puts a tree at the end of names; files in the way give way to directories. -/
def put (tree : FileTree) (names : List String) (content : FileTree) : FileTree :=
  match names with
  | [] => content.inPlaceOf tree
  | name :: rest =>
    let entries := tree.entries?.getD []
    let inner := put ((entries.lookup name).getD (.directory [])) rest content
    .directory (entries.filter (fun e => e.1 != name) ++ [(name, inner)])

end FileTree

end Casewise
