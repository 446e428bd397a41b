import MethodContracts.Command.Input
import MethodContracts.Contract.Json
import MethodContracts.Inference.Infer
import MethodContracts.Json.Printer
import MethodContracts.Text.Position

/-!
# Reports of the command line

What a command found, as lines for people or as JSON for programs.
-/
namespace MethodContracts

/-- Lines with a line break after each. -/
def linesText (lines : List String) : String := String.join (lines.map (· ++ "\n"))

/-- A value on many lines, with a line break at the end. -/
def jsonText (json : Json) : String := linesText [json.pretty]

structure InferReport where
  signature : String
  origin : Origin
  contracts : List Contract
deriving DecidableEq, Repr

namespace InferReport

def ofMethod (config : ContractConfig) (method : Method) : Except Fault InferReport := do
  let (origin, contracts) ← method.contracts config
  return ⟨method.signature, origin, contracts⟩

def line (report : InferReport) : String :=
  let text := if report.contracts.isEmpty then "(none)" else Contracts.text report.contracts
  let mark :=
    match report.origin with
    | .declared => " (declared)"
    | .inferred => ""
  report.signature ++ ": " ++ text ++ mark

def toJson (report : InferReport) : Json :=
  .object [("method", .string report.signature), ("source", .string report.origin.word),
    ("text", .string (Contracts.text report.contracts)),
    ("contracts", .ofList Contract.toJson report.contracts)]

end InferReport

/-- A diagnostic with its method and its place, where they are known. -/
structure CheckEntry where
  method : Option String
  diagnostic : Diagnostic
  /-- Line and column. -/
  position : Option (Nat × Nat)
deriving DecidableEq, Repr

namespace CheckEntry

/-- The entry of a diagnostic about a text, if the text is known. -/
def ofDiagnostic (text : Option String) (method : Option String) (diagnostic : Diagnostic) :
    CheckEntry :=
  let position := do
    let text ← text
    let span ← diagnostic.span
    return Text.lineColumn text span.start
  ⟨method, diagnostic, position⟩

def line (path : Path) (entry : CheckEntry) : String :=
  let place :=
    match entry.position with
    | some (line, column) => s!":{line}:{column}"
    | none => ""
  let diagnostic := entry.diagnostic
  s!"{path.text}{place}: {diagnostic.severity.word}[{diagnostic.code}] {diagnostic.message}"

def toJson (entry : CheckEntry) : Json :=
  let method := entry.method.toList.map fun method => ("method", Json.string method)
  let position := entry.position.toList.flatMap fun (line, column) =>
    [("line", Json.nat line), ("column", Json.nat column)]
  .object (method ++ entry.diagnostic.jsonMembers ++ position)

end CheckEntry

structure CheckReport where
  entries : List CheckEntry
deriving DecidableEq, Repr

namespace CheckReport

/-- Syntax errors come first, then the problems of each method. -/
def ofInput (input : Input) : CheckReport :=
  let syntaxEntries := input.errors.map fun error =>
    CheckEntry.ofDiagnostic input.text none (.error "SYNTAX" error.message (some error.span))
  let methodEntries := input.methods.flatMap fun method =>
    method.checkDeclared.map (CheckEntry.ofDiagnostic input.text (some method.signature))
  ⟨syntaxEntries ++ methodEntries⟩

def count (report : CheckReport) (severity : Severity) : Nat :=
  (report.entries.filter (·.diagnostic.severity == severity)).length

def lines (path : Path) (report : CheckReport) : List String :=
  report.entries.map (·.line path) ++
    [s!"summary: {report.count .error} errors, {report.count .warning} warnings"]

def toJson (report : CheckReport) : Json :=
  .object [("diagnostics", .ofList CheckEntry.toJson report.entries),
    ("summary", .object [("errors", .nat (report.count .error)),
      ("warnings", .nat (report.count .warning))])]

end CheckReport
end MethodContracts
