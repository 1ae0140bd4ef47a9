import Casewise.FileTree
import Casewise.Json.Reader
import Casewise.Suite
import Casewise.Yaml.Place

/-!
# Casewise.DataFile -- data sets and suites from files

Data files are written in JSON or in YAML, and the extension of a file says in which. Loading a
file first looks at its name, then at its bytes, then at its text, and reports the first of the
three that is wrong.
-/

namespace Casewise

/-- **The kind of a data file.** -/
inductive Format where
  | json
  | yaml
deriving Repr, DecidableEq, Inhabited

namespace Format

/-- The format of files with an extension. -/
def ofExtension? : String → Option Format
  | "json" => some .json
  | "yaml" => some .yaml
  | "yml" => some .yaml
  | _ => none

/-- **The format of the file that a path names.** -/
def ofPath (path : String) : Except Problem Format :=
  match ((Path.fileName? path).bind Path.extension?).bind ofExtension? with
  | some format => .ok format
  | none => .error (.unsupportedFormat path)

/-- The problem of a text that is not what its format and its reader expect. -/
def invalid : Format → String → Problem
  | .json, origin => .invalidJson origin
  | .yaml, origin => .invalidYaml origin

/-- What a text is called that comes from no file. -/
def inlineOrigin : Format → String
  | .json => "inline JSON"
  | .yaml => "inline YAML"

end Format

/-- **Something that a data file can hold**: how it is read from either kind of file, and which
parts of the file that takes. -/
class Loadable (α : Type) where
  shape : Shape
  ofDatum? : Datum → Option α
  ofPlace? : Yaml.Place → Option α

instance {V : Type} [Cell V] : Loadable (DataSets V) where
  shape := .all
  ofDatum? := DataSets.read?
  ofPlace? := DataSets.read?

instance {V : Type} [Cell V] : Loadable (Suite V) where
  shape := Suite.shape
  ofDatum? := Suite.read?
  ofPlace? := Suite.read?

namespace Format

variable {α : Type}

/-- Reads a text, if it fits. -/
def read? [Loadable α] (format : Format) (text : String) : Option α :=
  match format with
  | .json => (Json.parse? text).bind Loadable.ofDatum?
  | .yaml => (Yaml.Place.parse? (Loadable.shape α) text).bind Loadable.ofPlace?

/-- **Reads a text** that is called `origin` where it is reported. -/
def parse [Loadable α] (format : Format) (origin text : String) : Except Problem α :=
  match format.read? text with
  | some a => .ok a
  | none => .error (format.invalid origin)

/-- A JSON text is read just if it is the text of a datum that fits. -/
theorem parse_json_eq_ok_iff [Loadable α] {origin text : String} {a : α} :
    parse .json origin text = .ok a ↔
      ∃ d, Json.parse? text = some d ∧ Loadable.ofDatum? d = some a := by
  have hread : parse .json origin text = .ok a ↔ read? .json text = some a := by
    rw [parse]
    cases (read? .json text : Option α) with
    | none => simp
    | some b => simp
  rw [hread]
  exact Option.bind_eq_some_iff

end Format

/-- **Loads what the file at a path holds**, given what is found there. -/
def loadFound {α : Type} [Loadable α] (path : String) (found : Option FileTree) :
    Except Problem α := do
  let format ← Format.ofPath path
  match found.bind FileTree.text? with
  | some text => format.parse path text
  | none => .error (.unreadableFile path)

/-- **Loads what the file at a path holds.** -/
def load {α : Type} [Loadable α] (files : Files) (path : String) : Except Problem α :=
  loadFound path (files path)

end Casewise
