import MethodContracts.Number.Shortest
import MethodContracts.Settings.Basic
import MethodContracts.Text.Printable
import MethodContracts.Toml.Basic

/-!
# Settings of a document

Every section and every setting may be missing. A section is a table, or an
array of its settings in order. Entries are read in the order in which they are
written, and the first value of the wrong kind is the error. Unknown keys are
listed with the names of the tables around them; what is inside an unknown table
is not looked at.
-/
namespace MethodContracts

open Toml

/-- What a setting has to be. -/
inductive Expected where
  | count
  | flag
  | text
  | path
  | section (name : String)
deriving DecidableEq, Repr

def Expected.display : Expected → String
  | .count => "usize"
  | .flag => "a boolean"
  | .text => "a string"
  | .path => "path string"
  | .section name => "struct " ++ name

/-- Why a value is no setting. -/
inductive SettingsFault where
  | wrongKind (found : Value) (expected : Expected)
  | wrongNumber (found : Int) (expected : Expected)

/-- The way a value is named in a message. -/
def Toml.Value.display : Value → String
  | .string text => "string " ++ Text.quoted text
  | .integer value => s!"integer `{value}`"
  | .float value => s!"floating point `{value.text}`"
  | .boolean value => s!"boolean `{value}`"
  | .array _ | .tables _ => "sequence"
  | .table _ _ | .datetime => "map"

def SettingsFault.message : SettingsFault → String
  | .wrongKind found expected => s!"invalid type: {found.display}, expected {expected.display}"
  | .wrongNumber found expected =>
    s!"invalid value: integer `{found}`, expected {expected.display}"

/-- Settings, or what is wrong with the document. -/
abbrev Decoded := Except SettingsFault

def countOf : Value → Decoded Nat
  | .integer value => if value < 0 then .error (.wrongNumber value .count) else .ok value.toNat
  | other => .error (.wrongKind other .count)

def flagOf : Value → Decoded Bool
  | .boolean value => .ok value
  | other => .error (.wrongKind other .flag)

def textOf (expected : Expected) : Value → Decoded String
  | .string text => .ok text
  | other => .error (.wrongKind other expected)

/-- The one entry that a date is read as, where a table is wanted. -/
def dateEntry : Entries := [("$__toml_private_datetime", .datetime)]

/-- Reads a section by a function that reads one of its settings. -/
def sectionOf (name : String) (keys : List String) (set : α → String → Value → Decoded α)
    (initial : α) : Value → Decoded α
  | .table _ entries => entries.foldlM (fun current (key, value) => set current key value) initial
  | .datetime => dateEntry.foldlM (fun current (key, value) => set current key value) initial
  | .array items =>
    (keys.zip items).foldlM (fun current (key, value) => set current key value) initial
  | .tables items =>
    (keys.zip items).foldlM
      (fun current (key, entries) => set current key (.table .header entries)) initial
  | other => .error (.wrongKind other (.section name))

namespace Logging

def keys : List String := ["level", "json", "stderr", "file"]

/-- Reads one setting; an unknown key changes nothing. -/
def set (logging : Logging) (key : String) (value : Value) : Decoded Logging :=
  match key with
  | "level" => return { logging with level := ← textOf .text value }
  | "json" => return { logging with json := ← flagOf value }
  | "stderr" => return { logging with stderr := ← flagOf value }
  | "file" => return { logging with file := some ⟨← textOf .path value⟩ }
  | _ => return logging

end Logging

namespace InferenceSettings

def keys : List String := ["max_states", "prefer_declared"]

def set (inference : InferenceSettings) (key : String) (value : Value) :
    Decoded InferenceSettings :=
  match key with
  | "max_states" => return { inference with maxStates := ← countOf value }
  | "prefer_declared" => return { inference with preferDeclared := ← flagOf value }
  | _ => return inference

end InferenceSettings

namespace Settings

def keys : List String := ["logging", "inference"]

/-- Reads one section; an unknown key changes nothing. -/
def set (settings : Settings) (key : String) (value : Value) : Decoded Settings :=
  match key with
  | "logging" => do
    let logging ← sectionOf "LoggingConfig" Logging.keys Logging.set settings.logging value
    return { settings with logging := logging }
  | "inference" => do
    let inference ←
      sectionOf "InferenceSettings" InferenceSettings.keys InferenceSettings.set
        settings.inference value
    return { settings with inference := inference }
  | _ => return settings

def ofEntries (entries : Entries) : Decoded Settings :=
  entries.foldlM (fun settings (key, value) => settings.set key value) .default

/-- The keys of a table that are not among the known ones. -/
def unknownIn (known : List String) : Value → List String
  | .table _ entries => (entries.map (·.1)).filter (!known.contains ·)
  | .datetime => dateEntry.map (·.1)
  | _ => []

/-- The unknown keys of one entry of a document. -/
def unknownOf (key : String) (value : Value) : List String :=
  match key with
  | "logging" => (unknownIn Logging.keys value).map ("logging." ++ ·)
  | "inference" => (unknownIn InferenceSettings.keys value).map ("inference." ++ ·)
  | _ => [key]

/-- A list without members that repeat the one before. -/
def withoutRepeats : List String → List String
  | first :: second :: rest =>
    if first = second then withoutRepeats (second :: rest)
    else first :: withoutRepeats (second :: rest)
  | short => short

/-- The unknown keys of a document in order. Dots in front do not count. -/
def unknownKeys (entries : Entries) : List String :=
  let found := entries.flatMap fun (key, value) => unknownOf key value
  let shown := found.map fun key => String.ofList (key.toList.dropWhile (· == '.'))
  withoutRepeats (shown.mergeSort fun left right => decide (left ≤ right))

end Settings
end MethodContracts
