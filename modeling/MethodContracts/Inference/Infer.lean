import MethodContracts.Contract.Text
import MethodContracts.Diagnostic
import MethodContracts.Inference.Evaluate

/-!
# The contracts of a method

A method's contracts are those its annotation declares, if they are wanted and
usable, and otherwise those inferred from its body. Declared contracts are
usable if they can be read and each has one argument per parameter.
-/
namespace MethodContracts

/-- The number of states up to which expressions are evaluated by default. -/
def defaultMaxStates : Nat := 300

/-- How the contracts of a method are found. -/
structure ContractConfig where
  maxStates : Nat
  /-- Whether usable declared contracts win over inferred ones. -/
  preferDeclared : Bool
deriving DecidableEq, Repr

def ContractConfig.default : ContractConfig := ⟨defaultMaxStates, true⟩

inductive Origin where
  | declared
  | inferred
deriving DecidableEq, Repr

def Origin.word : Origin → String
  | .declared => "declared"
  | .inferred => "inferred"

namespace Method

def interpreter (method : Method) (body : Body) (maxStates : Nat) : Interpreter :=
  ⟨body, method.params.map (·.name), maxStates⟩

/-- The contracts inferred from the body; none without one. -/
def inferContracts (method : Method) (maxStates : Nat) : Except Fault (List Contract) :=
  match method.body with
  | none => .ok []
  | some body =>
    match body.statements? with
    | none => .error (.noStmt body.root)
    | some statements =>
      (method.interpreter body maxStates).evalStmts
        [Arguments.unknown method.params.length] statements

/-- The first annotation that declares contracts, by its simple name. -/
def contractAnnotation? (method : Method) : Option MethodAnnotation :=
  method.annotations.find? (·.simpleName == "Contract")

/-- What the annotation declares, if it has a string value. -/
def declaredContracts? (method : Method) : Option (Except ContractError (List Contract)) := do
  let note ← method.contractAnnotation?
  let text ← note.value
  return Contracts.parse text

/-- The declared contracts, if each has one argument per parameter. -/
def usableContracts? (method : Method) : Option (List Contract) :=
  match method.declaredContracts? with
  | some (.ok contracts) =>
    if contracts.all fun contract => contract.arguments.length == method.params.length then
      some contracts
    else none
  | _ => none

def contracts (method : Method) (config : ContractConfig) :
    Except Fault (Origin × List Contract) :=
  match if config.preferDeclared then method.usableContracts? else none with
  | some contracts => .ok (.declared, contracts)
  | none => (method.inferContracts config.maxStates).map fun contracts => (.inferred, contracts)

/-- The report of a declared contract that has the wrong number of arguments. -/
def arityDiagnostic (method : Method) (span : Option Span) (contract : Contract) : Diagnostic :=
  let clause := contract.text
  let count := contract.arguments.length
  let wanted := method.params.length
  .error "CONTRACT_ARITY"
    s!"contract clause `{clause}` has {count} argument(s) but `{method.name}` takes {wanted}" span

/-- The problems of the declared contracts. An annotation without a string value
has none. -/
def checkDeclared (method : Method) : List Diagnostic :=
  match method.contractAnnotation? with
  | none => []
  | some note =>
    match note.value with
    | none => []
    | some text =>
      let span := if note.span.isEmpty then none else some note.span
      match Contracts.parse text with
      | .error error =>
        let message := error.message
        [.error "CONTRACT_SYNTAX" s!"invalid contract on `{method.name}`: {message}" span]
      | .ok contracts =>
        (contracts.filter fun contract =>
          contract.arguments.length != method.params.length).map (method.arityDiagnostic span)

end Method
end MethodContracts
