import Casewise.DataFile
import Casewise.Listing

/-!
# Casewise.CommandLine -- arguments, commands and what a run prints

A command line is a list of arguments: switches, which start with a dash, and words. `parse?`
reads it, and everything that it does not read is bad usage. Reading goes from left to right and
ends early where a switch asks for the version or for help.

There are two commands. `expand` lists the tests of one suite. `check` builds the suites of many
files and of all data files below directories, in the order of their paths, and says of each
whether it could be built. A run is a value: its exit status, what it prints, the problems it
reports and the warnings that were raised.

The wording of the help (`usage`) is this program's own; the commands, switches and arguments that
it names are those that are read.
-/

namespace Casewise

open Text

namespace CommandLine

/-! ## Arguments -/

/-- **A switch.** -/
inductive Switch where
  | verbose
  | version
  | help
  | json
deriving Repr, DecidableEq, Inhabited

/-- **A piece of a command line**: a switch, a word, or the mark that only words follow. -/
inductive Piece where
  | switch (switch : Switch)
  | unknown
  | mark
  | word (text : String)
deriving Repr, DecidableEq, Inhabited

/-- The switch that a letter after a dash stands for. -/
def Piece.ofLetter : Char → Piece
  | 'v' => .switch .verbose
  | 'V' => .switch .version
  | 'h' => .switch .help
  | _ => .unknown

/-- The switch that a name after two dashes stands for. -/
def Piece.ofName : String → Piece
  | "verbose" => .switch .verbose
  | "version" => .switch .version
  | "help" => .switch .help
  | "json" => .switch .json
  | _ => .unknown

/-- The pieces of an argument other than the mark. A single dash is a word; several letters after
one dash are as many switches. -/
def Piece.ofArgument (argument : String) : List Piece :=
  match argument.toList with
  | '-' :: '-' :: name => [ofName (String.ofList name)]
  | '-' :: first :: letters => ofLetter first :: letters.map ofLetter
  | _ => [.word argument]

/-- **The pieces of a command line.** -/
def pieces : List String → List Piece
  | [] => []
  | "--" :: words => .mark :: words.map .word
  | argument :: rest => Piece.ofArgument argument ++ pieces rest

/-! ## Commands -/

/-- **What a program is asked to do.** -/
inductive Command where
  | expand (file : String) (json : Bool)
  | check (paths : List String)
  | version
  | help
deriving Repr, DecidableEq, Inhabited

/-- **A command and whether it is to be carried out talkatively.** -/
structure Invocation where
  verbose : Bool
  command : Command
deriving Repr, DecidableEq, Inhabited

/-- Reads what follows `expand`: one file, and each switch at most once. -/
def parseExpand? (verbose json : Bool) (file : Option String) : List Piece → Option Invocation
  | [] => file.map fun file => ⟨verbose, .expand file json⟩
  | .switch .verbose :: rest => if verbose then none else parseExpand? true json file rest
  | .switch .json :: rest => if json then none else parseExpand? verbose true file rest
  | .switch .help :: _ => some ⟨verbose, .help⟩
  | .mark :: rest => parseExpand? verbose json file rest
  | .word text :: rest =>
    if text.isEmpty || file.isSome then none else parseExpand? verbose json (some text) rest
  | .switch .version :: _ | .unknown :: _ => none

/-- What is checked when nothing is named. -/
def defaultPath : String := "tests"

/-- Reads what follows `check`: any number of paths; `paths` holds those before, the last one
first. -/
def parseCheck? (verbose : Bool) (paths : List String) : List Piece → Option Invocation
  | [] => some ⟨verbose, .check (if paths.isEmpty then [defaultPath] else paths.reverse)⟩
  | .switch .verbose :: rest => if verbose then none else parseCheck? true paths rest
  | .switch .help :: _ => some ⟨verbose, .help⟩
  | .mark :: rest => parseCheck? verbose paths rest
  | .word text :: rest => if text.isEmpty then none else parseCheck? verbose (text :: paths) rest
  | .switch .version :: _ | .switch .json :: _ | .unknown :: _ => none

/-- The command is carried out talkatively if it is asked for before it or after it. -/
def Invocation.orVerbose (verbose : Bool) (i : Invocation) : Invocation :=
  { i with verbose := verbose || i.verbose }

/-- Whether help can be given on what follows `help`: on the whole, or on one command. Everything
there is taken for the name of a command, switches too. -/
def areTopics : List Piece → Bool
  | [] => true
  | [.word name] => ["expand", "check", "help"].contains name
  | _ => false

/-- Reads what stands before the command, and the command. -/
def parsePieces? (verbose : Bool) : List Piece → Option Invocation
  | .switch .verbose :: rest => if verbose then none else parsePieces? true rest
  | .switch .version :: _ => some ⟨verbose, .version⟩
  | .switch .help :: _ => some ⟨verbose, .help⟩
  | .word "help" :: rest => if areTopics rest then some ⟨verbose, .help⟩ else none
  | .word "expand" :: rest => (parseExpand? false false none rest).map (·.orVerbose verbose)
  | .word "check" :: rest => (parseCheck? false [] rest).map (·.orVerbose verbose)
  | _ => none

/-- **Reads a command line**, if it is good usage. -/
def parse? (arguments : List String) : Option Invocation := parsePieces? false (pieces arguments)

/-! ## Files to check -/

/-- A file that is going to be loaded: its path and what is found there. -/
structure Candidate where
  path : String
  found : Option FileTree

/-- Whether the name of a file is that of a data file. -/
def isDataFile (names : List String) : Bool :=
  match Format.ofPath (names.getLast?.getD "") with
  | .ok _ => true
  | .error _ => false

/-- **The data files below a directory**, in the order of their paths. -/
def dataFiles (tree : FileTree) : List (List String × FileTree) :=
  (tree.files.filter fun f => isDataFile f.1).mergeSort fun a b => Path.inOrder a.1 b.1

/-- What one path asks to be checked: the data files below a directory, anything else itself. -/
def candidates (files : Files) (path : String) : List Candidate :=
  match files path with
  | some (.directory entries) =>
    (dataFiles (.directory entries)).map fun f => ⟨f.1.foldl Path.join path, some f.2⟩
  | found => [⟨path, found⟩]

section

variable {files : Files} {path : String}

theorem candidates_of_directory {entries : List (String × FileTree)}
    (h : files path = some (.directory entries)) :
    candidates files path =
      (dataFiles (.directory entries)).map fun f => ⟨f.1.foldl Path.join path, some f.2⟩ := by
  unfold candidates
  rw [h]

theorem candidates_of_not_directory (h : ∀ entries, files path ≠ some (.directory entries)) :
    candidates files path = [⟨path, files path⟩] := by
  unfold candidates
  split
  · rename_i entries hfound
    exact absurd hfound (h entries)
  · rfl

end

/-! ## Runs -/

/-- **What a run of the program comes to.** -/
structure Run where
  status : Nat
  output : Styled
  problems : List Problem
  warnings : List Warning

namespace Run

/-- A run that printed something and went well. -/
def printing (output : Styled) : Run := ⟨0, output, [], []⟩

/-- The run of a command line that could not be read. -/
def badUsage : Run := ⟨2, [], [], []⟩

/-- The run of a check that could not walk a directory to its end: no file is judged. -/
def unwalked (directory : String) : Run := ⟨1, [], [.unreadableFile directory], []⟩

/-- One run after the other; it went well if both did. -/
def append (a b : Run) : Run :=
  ⟨max a.status b.status, a.output ++ b.output, a.problems ++ b.problems,
    a.warnings ++ b.warnings⟩

end Run

/-- Loads a suite and builds it. -/
def buildFile (path : String) (found : Option FileTree) : Report (Namespace Unit) := do
  let suite : Suite Value ← .ofExcept (loadFound path found)
  suite.build

/-- **Lists the tests of a suite.** -/
def expandFile (files : Files) (path : String) (json : Bool) : Run :=
  let report := buildFile path (files path)
  match report.outcome with
  | .ok ns =>
    let tests := ns.discoverFrom ""
    ⟨0, if json then Listing.jsonOfTests tests else Listing.ofTests tests, [], report.warnings⟩
  | .error problem => ⟨1, [], [problem], report.warnings⟩

/-- **Checks one file.** -/
def checkFile (candidate : Candidate) : Run :=
  let report := buildFile candidate.path candidate.found
  match report.outcome with
  | .ok ns => ⟨0, Listing.statusLine candidate.path (.ok ns.size), [], report.warnings⟩
  | .error problem =>
    ⟨1, Listing.statusLine candidate.path (.error problem), [problem], report.warnings⟩

/-- **Checks files and directories** one after the other. -/
def checkPaths (files : Files) (paths : List String) : Run :=
  ((paths.flatMap (candidates files)).map checkFile).foldl Run.append (.printing [])

/-- What is printed for `--version`. -/
def versionLine : Styled := [.plain "dado 0.1.0\n"]

/-- What is printed for `--help`. -/
def usage : Styled :=
  [.plain <|
    "Expand data-driven test suites into individually named tests.\n\n" ++
    "Usage: dado [-v] expand FILE [--json]\n" ++
    "       dado [-v] check [PATHS...]\n"]

/-- **Carries out a command.** -/
def Command.run (files : Files) : Command → Run
  | .expand file json => expandFile files file json
  | .check paths => checkPaths files paths
  | .version => .printing versionLine
  | .help => .printing usage

/-- The paths that a command looks at. -/
def Command.paths : Command → List String
  | .expand file _ => [file]
  | .check paths => paths
  | .version | .help => []

/-- A command depends on no other files than those under its paths, so these are all that has to
be read before it is carried out. -/
theorem Command.run_congr {command : Command} {files others : Files}
    (h : ∀ path ∈ command.paths, files path = others path) :
    command.run files = command.run others := by
  cases command with
  | expand file json =>
    have hf : files file = others file := h file (by simp [paths])
    simp only [run, expandFile, hf]
  | check paths =>
    have hc : paths.map (candidates files) = paths.map (candidates others) :=
      List.map_congr_left fun path member => by
        simp only [candidates, h path member]
    simp only [run, checkPaths, List.flatMap, hc]
  | version => rfl
  | help => rfl

/-- Whether colours are wanted, seeing the kind of the terminal and the variable that forbids
them. -/
def wantsColour (terminal forbidden : Option String) : Bool :=
  forbidden.isNone && terminal.any (· != "dumb")

/-- **Carries out a command line.** -/
def run (files : Files) (arguments : List String) : Run :=
  match parse? arguments with
  | some invocation => invocation.command.run files
  | none => .badUsage

end CommandLine

end Casewise
