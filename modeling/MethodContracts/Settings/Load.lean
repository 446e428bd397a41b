import MethodContracts.Settings.Check
import MethodContracts.Settings.Decode
import MethodContracts.Toml.Reader

/-!
# Loading settings

The settings that apply to a file or directory stand in the nearest settings
file at or above it. Without one the defaults apply.
-/
namespace MethodContracts

/-- Why settings cannot be loaded. -/
inductive LoadError where
  | unreadable (path : Path) (error : FileError)
  | malformed
  | unfit (fault : SettingsFault)
  /-- The directives of the log filter cannot be checked. -/
  | unchecked (fault : CutFault)

namespace LoadError

def message : LoadError → String
  | .unreadable path error => s!"failed to read config file {path.text}: {error.message}"
  | .malformed => "failed to parse toml config: invalid document"
  | .unfit fault => s!"failed to parse toml config: {fault.message}"
  | .unchecked .insideCharacter => "a log directive is cut inside a character"

end LoadError

/-- Settings and what was found while they were loaded. -/
structure Loaded where
  settings : Settings
  report : SettingsReport
deriving DecidableEq, Repr

namespace Settings

/-- The names of settings files; the first one found counts. -/
def fileNames : List String := ["contrail.toml", ".contrail.toml"]

/-- The settings of a text, with the log file in a directory if one is given, and
the unknown keys of the text. -/
def parse (dir : Option Path) (text : String) : Except LoadError (Settings × List String) :=
  match Toml.parse? text with
  | none => .error .malformed
  | some entries =>
    match ofEntries entries with
    | .error fault => .error (.unfit fault)
    | .ok settings =>
      let placed :=
        match dir with
        | some dir => settings.relativeTo dir
        | none => settings
      .ok (placed, unknownKeys entries)

variable {m : Type → Type} [Monad m] (files : FileSystem m)

def checkRead : Except LoadError (Settings × List String) → m (Except LoadError Loaded)
  | .error error => return .error error
  | .ok (settings, unknownKeys) => do
    match ← settings.check files unknownKeys with
    | .error fault => return .error (.unchecked fault)
    | .ok report => return .ok ⟨settings, report⟩

/-- Reads and checks the settings of a text that is no file. -/
def loadText (text : String) : m (Except LoadError Loaded) := checkRead files (parse none text)

/-- Reads the settings of a file, and its unknown keys. -/
def read (path : Path) : m (Except LoadError (Settings × List String)) := do
  match ← files.read path with
  | .error error => return .error (.unreadable path error)
  | .ok text => return parse path.parent? text

/-- Reads and checks the settings of a file. -/
def load (path : Path) : m (Except LoadError Loaded) := do checkRead files (← read files path)

/-- The first path that is a file. -/
def firstFile? : List Path → m (Option Path)
  | [] => return none
  | path :: paths => do
    if ← files.isFile path then return some path
    else firstFile? paths

/-- The settings file for a file or directory, which need not exist. -/
def discover? (start : Path) : m (Option Path) := do
  let start := (← files.canonical? start).getD start
  let dir? := if ← files.isDirectory start then some start else start.parent?
  match dir? with
  | none => return none
  | some dir =>
    firstFile? files
      (dir.ancestors.flatMap fun ancestor => fileNames.map fun name => ancestor.join ⟨name⟩)

/-- The settings that apply to a file or directory, and where they stand. -/
def loadFor (start : Path) : m (Except LoadError (Option Path × Loaded)) := do
  match ← discover? files start with
  | none => return .ok (none, ⟨.default, .empty⟩)
  | some path =>
    match ← load files path with
    | .error error => return .error error
    | .ok loaded => return .ok (some path, loaded)

end Settings
end MethodContracts
