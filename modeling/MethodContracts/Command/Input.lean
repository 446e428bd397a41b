import MethodContracts.Files.Basic
import MethodContracts.Json.Reader
import MethodContracts.Method.Json
import MethodContracts.Method.OfSource
import MethodContracts.Source.Parse

/-!
# Input of the command line

A file whose name ends in `.json` holds a method or a list of methods, with
bodies that must be valid; its nodes may number their kinds. Any other file holds
source text.
-/
namespace MethodContracts

structure Input where
  /-- The source text, by which spans become positions. -/
  text : Option String
  methods : List Method
  errors : List Source.SyntaxError

/-- Why a file is no input. -/
inductive InputError where
  | unreadable (path : Path) (error : FileError)
  /-- The text is no JSON. -/
  | malformed (path : Path)
  /-- The JSON is no method and no list of methods. -/
  | noMethods (path : Path)
  | invalidBody (signature : String) (error : BodyError)

def InputError.message : InputError → String
  | .unreadable path error => s!"failed to read {path.text}: {error.message}"
  | .malformed path => s!"{path.text} is not a serialized method or method list: invalid JSON"
  | .noMethods path =>
    s!"{path.text} is not a serialized method or method list: " ++
      "data did not match any variant of untagged enum MethodsJson"
  | .invalidBody signature error => s!"invalid body for `{signature}`: {error.message}"

namespace Input

/-- The first method whose body is not valid, and what is wrong with it. -/
def firstFault? (methods : List Method) : Option (Method × BodyError) :=
  methods.findSome? fun method => method.bodyFault?.map (method, ·)

def ofJsonText (path : Path) (text : String) : Except InputError Input :=
  match Json.parse? text with
  | none => .error (.malformed path)
  | some json =>
    match Method.listOfJson? .numbered json with
    | none => .error (.noMethods path)
    | some methods =>
      match firstFault? methods with
      | some (method, error) => .error (.invalidBody method.signature error)
      | none => .ok ⟨none, methods, []⟩

def ofSource (text : String) : Input :=
  let parsed := Source.parse text
  ⟨some text, Method.ofUnit parsed.value, parsed.errors⟩

def load {m : Type → Type} [Monad m] (files : FileSystem m) (path : Path) :
    m (Except InputError Input) := do
  match ← files.read path with
  | .error error => return .error (.unreadable path error)
  | .ok text =>
    if path.extension? = some "json" then return ofJsonText path text
    else return .ok (ofSource text)

end Input
end MethodContracts
