import MethodContracts.Command.Arguments
import MethodContracts.Command.Report
import MethodContracts.Settings.Load
import MethodContracts.Settings.Schema

/-!
# Running commands

A command prints what it found and ends with 0, or with 1 if it found errors. It
ends with 2 if it cannot be carried out, and with 101 after a fault. The log file
of the settings is opened before their errors are reported.
-/
namespace MethodContracts

/-- How a command ends. -/
structure Outcome where
  exit : Nat
  stdout : String
  stderr : String
deriving DecidableEq, Repr

/-- Why a command cannot be carried out. -/
inductive CommandError where
  | settings (path : Option Path) (error : LoadError)
  | unusable (path : Option Path) (errors : List SettingsError)
  | input (error : InputError)
  | noSuchMethod (name : String) (path : Path)
  /-- A valid body never leads here. -/
  | fault (fault : Fault)

namespace CommandError

/-- The causes of a load error, from the outermost on. -/
def causes : LoadError → List String
  | .unreadable path error => [(LoadError.unreadable path error).message, error.message]
  | other => [other.message]

def message : CommandError → String
  | .settings path error =>
    let context :=
      match path with
      | some path => "failed to load config " ++ path.text
      | none => "failed to load contrail.toml"
    ": ".intercalate (context :: causes error)
  | .unusable path errors =>
    let origin := (path.map (·.text)).getD ""
    let messages := "; ".intercalate (errors.map SettingsError.message)
    s!"invalid config {origin}: {messages}"
  | .input error => error.message
  | .noSuchMethod name path => s!"no method named `{name}` in {path.text}"
  | .fault _ => "invalid body"

def exit : CommandError → Nat
  | .settings _ (.unchecked _) | .fault _ => 101
  | _ => 2

end CommandError

namespace Command

def versionText : String := "contrail 0.1.0"

section Steps

variable {m : Type → Type} [Monad m] (files : FileSystem m)

/-- The settings for a file, from a settings file that was named or found. -/
def loadSettings (path : Path) (config : Option Path) :
    m (Except CommandError (Option Path × Loaded)) := do
  match config with
  | some config =>
    match ← Settings.load files config with
    | .error error => return .error (.settings (some config) error)
    | .ok loaded => return .ok (some config, loaded)
  | none =>
    match ← Settings.loadFor files path with
    | .error error => return .error (.settings none error)
    | .ok found => return .ok found

/-- The settings for a file, with the log file opened. -/
def prepare (path : Path) (config : Option Path) : m (Except CommandError Settings) := do
  match ← loadSettings files path config with
  | .error error => return .error error
  | .ok (origin, loaded) =>
    match loaded.settings.logging.file with
    | some file => files.touch file
    | none => pure ()
    if loaded.report.isUsable then return .ok loaded.settings
    else return .error (.unusable origin loaded.report.errors)

/-- The settings for a file and the file. -/
def prepareInput (path : Path) (config : Option Path) :
    m (Except CommandError (Settings × Input)) := do
  match ← prepare files path config with
  | .error error => return .error error
  | .ok settings =>
    match ← Input.load files path with
    | .error error => return .error (.input error)
    | .ok input => return .ok (settings, input)

end Steps

/-- The methods of this name, or all methods. -/
def select (path : Path) (name : Option String) (methods : List Method) :
    Except CommandError (List Method) :=
  match name with
  | none => .ok methods
  | some name =>
    let found := methods.filter (·.name == name)
    if found.isEmpty then .error (.noSuchMethod name path) else .ok found

def inferOutcome (path : Path) (name : Option String) (json : Bool) (settings : Settings)
    (input : Input) : Except CommandError Outcome := do
  let methods ← select path name input.methods
  match methods.mapM (InferReport.ofMethod settings.contractConfig) with
  | .error fault => throw (.fault fault)
  | .ok reports =>
    let text :=
      if json then jsonText (.ofList InferReport.toJson reports)
      else linesText (reports.map InferReport.line)
    return ⟨0, text, ""⟩

def checkOutcome (path : Path) (json : Bool) (input : Input) : Outcome :=
  let report := CheckReport.ofInput input
  let text := if json then jsonText report.toJson else linesText (report.lines path)
  ⟨if report.count .error = 0 then 0 else 1, text, ""⟩

def contractOutcome (text : String) (json : Bool) : Outcome :=
  match Contracts.parse text with
  | .ok contracts =>
    ⟨0, if json then jsonText (.ofList Contract.toJson contracts)
      else linesText [Contracts.text contracts], ""⟩
  | .error error =>
    if json then ⟨1, jsonText (.object [("error", .string error.message)]), ""⟩
    else ⟨1, "", linesText ["error: " ++ error.message]⟩

/-- The outcome of a command that may not be carried out. -/
def finish : Except CommandError Outcome → Outcome
  | .ok outcome => outcome
  | .error error => ⟨error.exit, "", linesText [error.message]⟩

def run {m : Type → Type} [Monad m] (files : FileSystem m) : Command → m Outcome
  | .infer path name json config => do
    match ← prepareInput files path config with
    | .error error => return finish (.error error)
    | .ok (settings, input) => return finish (inferOutcome path name json settings input)
  | .check path json config => do
    match ← prepareInput files path config with
    | .error error => return finish (.error error)
    | .ok (_, input) => return checkOutcome path json input
  | .contract text json => return contractOutcome text json
  | .configSchema => return ⟨0, jsonText Settings.schema, ""⟩
  | .version => return ⟨0, linesText [versionText], ""⟩

end Command
end MethodContracts
