import MethodContracts.Files.Basic
import MethodContracts.Settings.LogFilter

/-!
# Checking settings

Settings of the right kind may still make no sense. A warning says what will not
work as written; an error says that inference cannot work.
-/
namespace MethodContracts

inductive SettingsWarning where
  | levelInvalid (level directives : String)
  | fileParentMissing (parent : Path)
deriving DecidableEq, Repr

def SettingsWarning.message : SettingsWarning → String
  | .levelInvalid level directives =>
    s!"logging.level `{level}` is not a valid filter (`{directives}`); falling back to `info`"
  | .fileParentMissing parent =>
    s!"logging.file: directory `{parent.text}` does not exist; file logging will be disabled"

inductive SettingsError where
  | tooFewStates
deriving DecidableEq, Repr

def SettingsError.message : SettingsError → String
  | .tooFewStates => "inference.max_states: must be >= 1"

/-- What was found while settings were read and checked. -/
structure SettingsReport where
  unknownKeys : List String
  warnings : List SettingsWarning
  errors : List SettingsError
deriving DecidableEq, Repr

namespace SettingsReport

def empty : SettingsReport := ⟨[], [], []⟩

def isEmpty (report : SettingsReport) : Bool :=
  report.unknownKeys.isEmpty && report.warnings.isEmpty && report.errors.isEmpty

def isUsable (report : SettingsReport) : Bool := report.errors.isEmpty

end SettingsReport

/-- Warns of a filter that cannot be read; a blank one stands for the default. -/
def Logging.levelWarnings (logging : Logging) : Except CutFault (List SettingsWarning) :=
  if (Text.trimString logging.level).isEmpty then return []
  else do
    match ← (LogFilter.parse logging.directives).run with
    | some _ => return []
    | none => return [.levelInvalid logging.level logging.directives]

/-- Warns of a log file in a directory that does not exist. -/
def Logging.fileWarnings [Monad m] (files : FileSystem m) (logging : Logging) :
    m (List SettingsWarning) := do
  match logging.file.bind Path.parent? with
  | none => return []
  | some parent =>
    if parent.text.isEmpty || (← files.isDirectory parent) then return []
    else return [.fileParentMissing parent]

namespace Settings

def errors (settings : Settings) : List SettingsError :=
  if settings.inference.maxStates = 0 then [.tooFewStates] else []

/-- Checks settings whose log file is where it is meant to be. -/
def check [Monad m] (files : FileSystem m) (settings : Settings) (unknownKeys : List String) :
    m (Except CutFault SettingsReport) := do
  match settings.logging.levelWarnings with
  | .error fault => return .error fault
  | .ok levelWarnings =>
    let fileWarnings ← settings.logging.fileWarnings files
    return .ok ⟨unknownKeys, levelWarnings ++ fileWarnings, settings.errors⟩

end Settings
end MethodContracts
