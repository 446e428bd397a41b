import MethodContracts.Files.Path

/-!
# Arguments of the command line

A command is named by the first argument. Options and the one other argument may
come in any order; after two dashes nothing is an option. An option is given at
most once, and the value of an option does not start with a dash, unless it is a
single dash or follows an equals sign. The version is asked for by its name or by
`-V`, whatever follows.
-/
namespace MethodContracts

/-- What the program is asked to do. -/
inductive Command where
  | infer (path : Path) (method : Option String) (json : Bool) (config : Option Path)
  | check (path : Path) (json : Bool) (config : Option Path)
  | contract (text : String) (json : Bool)
  | configSchema
  | version
deriving DecidableEq, Repr

/-- What a command takes. -/
structure Grammar where
  /-- The options without a value. -/
  flags : List String
  /-- The options with a value. -/
  options : List String
  /-- Whether there is one more argument. -/
  operand : Bool
deriving DecidableEq, Repr

/-- What was found among the arguments of a command. -/
structure Given where
  flags : List String
  options : List (String × String)
  operand : Option String
deriving DecidableEq, Repr

namespace Given

def empty : Given := ⟨[], [], none⟩

def addFlag (given : Given) (name : String) : Option Given :=
  if given.flags.contains name then none
  else some { given with flags := name :: given.flags }

def addOption (given : Given) (name value : String) : Option Given :=
  if (given.options.lookup name).isSome then none
  else some { given with options := (name, value) :: given.options }

def addOperand (given : Given) (value : String) : Option Given :=
  if given.operand.isSome then none else some { given with operand := some value }

end Given

def looksLikeOption (argument : String) : Bool :=
  argument.toList.head? == some '-' && argument.length != 1

namespace Grammar

variable (grammar : Grammar)

def readOperands (given : Given) (arguments : List String) : Option Given :=
  if grammar.operand || arguments.isEmpty then
    arguments.foldlM (fun given argument => given.addOperand argument) given
  else none

def read (given : Given) : List String → Option Given
  | [] => some given
  | "--" :: rest => grammar.readOperands given rest
  | argument :: rest =>
    if looksLikeOption argument then
      match Text.splitFirst ['='] argument.toList with
      | some (name, value) =>
        let name := String.ofList name
        if grammar.options.contains name then do
          let given ← given.addOption name (String.ofList value)
          read given rest
        else none
      | none =>
        if grammar.flags.contains argument then do
          let given ← given.addFlag argument
          read given rest
        else if grammar.options.contains argument then
          match rest with
          | value :: rest =>
            if looksLikeOption value then none
            else do
              let given ← given.addOption argument value
              read given rest
          | [] => none
        else none
    else do
      let given ← grammar.readOperands given [argument]
      read given rest

end Grammar

namespace Command

/-- A path that was given, which is not empty. -/
def pathOf? (text : String) : Option Path := if text.isEmpty then none else some ⟨text⟩

/-- A path that may have been given. -/
def optionalPath? : Option String → Option (Option Path)
  | none => some none
  | some text => (pathOf? text).map some

def inferGrammar : Grammar := ⟨["--json"], ["--method", "--config"], true⟩

def checkGrammar : Grammar := ⟨["--json"], ["--config"], true⟩

def contractGrammar : Grammar := ⟨["--json"], [], true⟩

def schemaGrammar : Grammar := ⟨[], [], false⟩

/-- The command that arguments name, if they are well formed. -/
def ofArguments? : List String → Option Command
  | "infer" :: rest => do
    let given ← inferGrammar.read .empty rest
    let path ← pathOf? (← given.operand)
    let config ← optionalPath? (given.options.lookup "--config")
    return .infer path (given.options.lookup "--method") (given.flags.contains "--json") config
  | "check" :: rest => do
    let given ← checkGrammar.read .empty rest
    let path ← pathOf? (← given.operand)
    let config ← optionalPath? (given.options.lookup "--config")
    return .check path (given.flags.contains "--json") config
  | "contract" :: rest => do
    let given ← contractGrammar.read .empty rest
    return .contract (← given.operand) (given.flags.contains "--json")
  | "config-schema" :: rest => do
    discard (schemaGrammar.read .empty rest)
    return .configSchema
  | "--version" :: _ => some .version
  | first :: _ => if ['-', 'V'].isPrefixOf first.toList then some .version else none
  | [] => none

/-- What is said where arguments are not well formed. -/
def usage : String :=
  "usage: contrail infer PATH [--method NAME] [--json] [--config FILE]\n" ++
    "       contrail check PATH [--json] [--config FILE]\n" ++
    "       contrail contract TEXT [--json]\n" ++
    "       contrail config-schema\n" ++
    "       contrail --version"

end Command
end MethodContracts
