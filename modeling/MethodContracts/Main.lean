import MethodContracts.Command.Run

/-!
# The program

Runs the command that its arguments name, on the files of the machine.
-/
namespace MethodContracts

/-- The reason that the machine gives. Some calls give its number negated. -/
def FileError.ofError : IO.Error → FileError
  | .noFileOrDirectory _ _ _ => .notFound
  | .inappropriateType _ code details | .invalidArgument _ code details =>
    let number := min code (0 - code)
    if number = 20 then .notDirectory
    else if number = 21 then .isDirectory
    else if number = 36 then .nameTooLong
    else .other details
  | error => .other (toString error)

/-- The absolute path without dots of what exists at a path. -/
def resolve? (text : String) : IO (Option String) := do
  try return some (toString (← IO.FS.realPath text))
  catch _ => return none

/-- Whether a path leads to a directory: only then does it go on with a dot. -/
def leadsToDirectory (path : Path) : IO Bool := do
  if path.text.isEmpty then return false
  else return (← resolve? (path.text ++ "/.")).isSome

def machineFiles : FileSystem IO where
  read path := do
    if path.hasNull then return .error .nullInName
    try return .ok (← IO.FS.readFile path.text)
    catch error => return .error (.ofError error)
  isFile path := do
    if ← leadsToDirectory path then return false
    else return (← resolve? path.text).isSome
  isDirectory := leadsToDirectory
  canonical? path := do return (← resolve? path.text).map fun text => ⟨text⟩
  touch path := do
    try discard (IO.FS.Handle.mk path.text .append)
    catch _ => return ()

end MethodContracts

open MethodContracts in
def main (arguments : List String) : IO UInt32 := do
  match Command.ofArguments? arguments with
  | none =>
    (← IO.getStderr).putStrLn Command.usage
    return 2
  | some command =>
    let outcome ← command.run machineFiles
    (← IO.getStdout).putStr outcome.stdout
    (← IO.getStderr).putStr outcome.stderr
    return UInt32.ofNat outcome.exit
