import MethodContracts.Files.Path
import MethodContracts.Inference.Infer
import MethodContracts.Json.Basic

/-!
# Settings

What a settings file can say: how to log, and how to infer.
-/
namespace MethodContracts

structure Logging where
  /-- A level, or directives for a log filter. -/
  level : String
  json : Bool
  stderr : Bool
  /-- The file that the log is added to. -/
  file : Option Path
deriving DecidableEq, Repr

structure InferenceSettings where
  maxStates : Nat
  preferDeclared : Bool
deriving DecidableEq, Repr

structure Settings where
  logging : Logging
  inference : InferenceSettings
deriving DecidableEq, Repr

def Logging.default : Logging := ⟨"warn", false, true, none⟩

def InferenceSettings.default : InferenceSettings := ⟨defaultMaxStates, true⟩

namespace Settings

def default : Settings := ⟨.default, .default⟩

/-- How contracts are found under these settings. At least one state is allowed. -/
def contractConfig (settings : Settings) : ContractConfig :=
  ⟨max settings.inference.maxStates 1, settings.inference.preferDeclared⟩

/-- The settings of a file in a directory: a relative log file lies in it. -/
def relativeTo (dir : Path) (settings : Settings) : Settings :=
  { settings with logging := { settings.logging with file := settings.logging.file.map dir.join } }

end Settings

def Logging.toJson (logging : Logging) : Json :=
  .object [("level", .string logging.level), ("json", .bool logging.json),
    ("stderr", .bool logging.stderr), ("file", .ofOption (.string ·.text) logging.file)]

def InferenceSettings.toJson (inference : InferenceSettings) : Json :=
  .object [("max_states", .nat inference.maxStates),
    ("prefer_declared", .bool inference.preferDeclared)]

def Settings.toJson (settings : Settings) : Json :=
  .object [("logging", settings.logging.toJson), ("inference", settings.inference.toJson)]

end MethodContracts
