import Casewise.CommandLine

/-!
# Casewise.Main -- the program

The outermost layer: it reads what is on disk under the paths of a command, as file trees, has the
command carried out, and prints what the run comes to. Listings go to the standard output,
problems and warnings to the standard error.

A file that cannot be read is part of the tree all the same, and fails when it is loaded. A
directory that cannot be walked to its end is no tree: a check of it ends with this problem before
any file is judged.

How things are laid out on the standard error is this program's own: the frame of a problem with
its code and its advice (`Problem.report`), the word before a warning, and the line that a run under
`--verbose` adds. The codes, messages and advice themselves come from the problems and warnings.
-/

namespace Casewise

/-! ## What is on disk -/

/-- The file at an entry; one that cannot be read has no content. -/
def readFile (entry : IO.FS.DirEntry) : IO FileTree := do
  try
    return .file (some (← IO.FS.readBinFile entry.path))
  catch _ => return .file none

/-- The directory at an entry, with the files and directories below it. Links in it are not
followed, so they are neither. -/
partial def readDirectory (entry : IO.FS.DirEntry) : IO FileTree := do
  let found ← (← entry.path.readDir).toList.filterMapM fun inner => do
    match (← inner.path.symlinkMetadata).type with
    | .dir => return some (inner.fileName, ← readDirectory inner)
    | .file => return some (inner.fileName, ← readFile inner)
    | _ => return none
  return .directory found

/-- What is on disk under a path, seen from the current directory, if anything is there. -/
def readPath (path : String) : IO (Option FileTree) := do
  let entry : IO.FS.DirEntry := ⟨← IO.currentDir, path⟩
  if ← entry.path.isDir then return some (← readDirectory entry)
  else if ← entry.path.pathExists then return some (← readFile entry)
  else return none

/-! ## What is reported -/

/-- A problem as it is reported: its code and wording, and the advice if there is any. -/
def Problem.report (p : Problem) : String :=
  "error[" ++ p.code ++ "]: " ++ p.message ++
    match p.help with
    | some help => "\n  help: " ++ help
    | none => ""

end Casewise

open Casewise in
/-- **The program.** -/
def main (arguments : List String) : IO UInt32 := do
  let invocation := CommandLine.parse? arguments
  let paths := (invocation.map fun i => i.command.paths).getD []
  let found ← paths.mapM fun path => do return (path, ← (readPath path).toBaseIO)
  let files : Files := fun path => (found.lookup path).bind fun read => read.toOption.join
  let unwalked := found.find? fun read => !read.2.isOk
  let run := match invocation, unwalked with
    | some ⟨_, .check _⟩, some (path, _) => CommandLine.Run.unwalked path
    | _, _ => CommandLine.run files arguments
  let coloured := CommandLine.wantsColour (← IO.getEnv "TERM") (← IO.getEnv "NO_COLOR")
  IO.print (run.output.render coloured)
  for warning in run.warnings do
    IO.eprintln ("warning: " ++ warning.message)
  for problem in run.problems do
    IO.eprintln problem.report
  if invocation.isNone then
    IO.eprint (CommandLine.usage.render false)
  if invocation.any CommandLine.Invocation.verbose then
    IO.eprintln ("looked at " ++ toString paths.length ++ " path(s)")
  return run.status.toUInt32
