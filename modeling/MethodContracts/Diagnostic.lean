import MethodContracts.Span

/-!
# Diagnostics

What a check reports: how severe it is, a stable code, a message and, where it
is known, the place.
-/
namespace MethodContracts

inductive Severity where
  | error
  | warning
  | info
deriving DecidableEq, Repr

def Severity.word : Severity → String
  | .error => "error"
  | .warning => "warning"
  | .info => "info"

structure Diagnostic where
  severity : Severity
  code : String
  message : String
  span : Option Span
deriving DecidableEq, Repr

namespace Diagnostic

def error (code message : String) (span : Option Span) : Diagnostic :=
  ⟨.error, code, message, span⟩

def warning (code message : String) (span : Option Span) : Diagnostic :=
  ⟨.warning, code, message, span⟩

def isError (diagnostic : Diagnostic) : Bool := diagnostic.severity == .error

end Diagnostic
end MethodContracts
