import MethodContracts.Settings.Basic

/-!
# The schema of settings files

A JSON schema that editors can check settings files against.
-/
namespace MethodContracts.Settings

/-- An object of known settings without others, each of which may be missing. -/
def closedObject (properties : List (String × Json)) : List (String × Json) :=
  [("type", .string "object"), ("properties", .object properties),
    ("additionalProperties", .bool false)]

/-- A setting with its description, its default and what else is known of it. -/
def settingSchema (description : String) (default : Json) (more : List (String × Json)) : Json :=
  .object ([("description", .string description), ("default", default)] ++ more)

/-- A section with its description, its default and the name of its definition. -/
def sectionSchema (description : String) (default : Json) (name : String) : Json :=
  settingSchema description default
    [("allOf", .array [.object [("$ref", .string ("#/definitions/" ++ name))]])]

def sectionSchemas : List (String × Json) :=
  let logging := Logging.default
  let inference := InferenceSettings.default
  [("inference", sectionSchema "Contract inference settings."
      (.object [("max_states", .nat inference.maxStates),
        ("prefer_declared", .bool inference.preferDeclared)])
      "InferenceSettings"),
    ("logging", sectionSchema "Logging settings for every Contrail crate."
      (.object [("file", .ofOption (.string ·.text) logging.file), ("json", .bool logging.json),
        ("level", .string logging.level), ("stderr", .bool logging.stderr)])
      "LoggingConfig")]

def inferenceSchema : Json :=
  .object (closedObject
    [("max_states", settingSchema "Live states above which an expression stops being analysed."
        (.nat InferenceSettings.default.maxStates)
        [("type", .string "integer"), ("format", .string "uint"), ("minimum", .decimal "1.0")]),
      ("prefer_declared", settingSchema "Use a valid `@Contract` annotation instead of inferring."
        (.bool InferenceSettings.default.preferDeclared) [("type", .string "boolean")])])

def fileDescription : String :=
  "Append logs to the given file. A relative path is taken from the directory of the config " ++
    "file. If the file cannot be opened, file logging is disabled while stderr logging stays " ++
    "active."

def loggingSchema : Json :=
  .object (closedObject
    [("file", settingSchema fileDescription .null
        [("type", .array [.string "string", .string "null"])]),
      ("json", settingSchema "Emit logs as JSON lines." (.bool Logging.default.json)
        [("type", .string "boolean")]),
      ("level", settingSchema
        "A level (`info`, `debug`, ...) or a full `EnvFilter` directive string."
        (.string Logging.default.level) [("type", .string "string")]),
      ("stderr", settingSchema "Write logs to stderr." (.bool Logging.default.stderr)
        [("type", .string "boolean")])])

def schema : Json :=
  .object ([("$schema", .string "http://json-schema.org/draft-07/schema#"),
    ("title", .string "ContrailConfig")] ++ closedObject sectionSchemas ++
    [("definitions", .object [("InferenceSettings", inferenceSchema),
      ("LoggingConfig", loggingSchema)])])

end MethodContracts.Settings
