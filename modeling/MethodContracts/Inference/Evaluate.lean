import MethodContracts.Contract.Basic
import MethodContracts.Method.Basic

/-!
# Evaluating bodies under constraints

A state is what is known of the arguments. Evaluating an expression under a
list of states yields contracts: what is known on each path, with the result.
Evaluating statements yields the contracts of the paths that end there. Shapes
that are not understood yield nothing.

An expression under more states than the limit yields nothing. A test pins the
slot of its parameter, whatever was known of it.

A body that was not validated may refer to nodes that do not exist, and a state
may have too few slots; evaluation then ends with a fault. References of a valid
body point back, so its nesting is less deep than its arenas are long. Where
expressions refer to each other in a circle, evaluation still ends once no states
or too many are left; a circle is followed for many levels before it is a fault.
-/
namespace MethodContracts

/-- Why an evaluation cannot go on. -/
inductive Fault where
  | noExpr (id : ExprId)
  | noStmt (id : StmtId)
  | noSlot (slot : Nat)
  /-- References run in a circle. -/
  | circular
deriving DecidableEq, Repr

/-- What an evaluation needs to know. -/
structure Interpreter where
  body : Body
  /-- The names of the parameters. -/
  params : List String
  /-- The number of states up to which expressions are evaluated. -/
  maxStates : Nat
deriving DecidableEq, Repr

/-- The arguments of the contracts with this result, in order. -/
def Contract.argumentsWith (result : Constraint) (contracts : List Contract) : List Arguments :=
  (contracts.filter (·.result == result)).map (·.arguments)

/-- One contract with this result for each state. -/
def Contract.each (states : List Arguments) (result : Constraint) : List Contract :=
  states.map (⟨·, result⟩)

/-- The contracts with a boolean result, negated. -/
def Contract.negated (contracts : List Contract) : List Contract :=
  (contracts.filter fun contract =>
    contract.result == .isTrue || contract.result == .isFalse).map fun contract =>
      ⟨contract.arguments, contract.result.negate⟩

/-- The constraint that a literal satisfies, if there is one. -/
def Literal.constraint? : Literal → Option Constraint
  | .null => some .null
  | .isTrue => some .isTrue
  | .isFalse => some .isFalse
  | .int | .string | .char => none

namespace Interpreter

variable (i : Interpreter)

def expr (id : ExprId) : Except Fault Expr :=
  match i.body.expr? id with
  | some expr => .ok expr
  | none => .error (.noExpr id)

def stmt (id : StmtId) : Except Fault Stmt :=
  match i.body.stmt? id with
  | some stmt => .ok stmt
  | none => .error (.noStmt id)

/-- The parameter that an expression is: a plain name, and the first of that name. -/
def paramOf? : Expr → Option Nat
  | .name name _ => i.params.idxOf? name
  | _ => none

/-- The constraint that an expression always satisfies, if it is such a literal. -/
def literalOf? : Expr → Option Constraint
  | .literal literal _ _ => literal.constraint?
  | _ => none

/-- The state with one slot replaced. -/
def pin (state : Arguments) (slot : Nat) (constraint : Constraint) : Except Fault Arguments :=
  match state.pin? slot constraint with
  | some pinned => .ok pinned
  | none => .error (.noSlot slot)

/-- A parameter and the literal it is compared with, the left operand first. -/
def comparison? (left right : Expr) : Option (Nat × Constraint) :=
  match i.paramOf? left, literalOf? right with
  | some slot, some constraint => some (slot, constraint)
  | _, _ =>
    -- The literal may as well come first.
    match i.paramOf? right, literalOf? left with
    | some slot, some constraint => some (slot, constraint)
    | _, _ => none

/-- One state under a comparison: equal first, then different. -/
def compareState (slot : Nat) (constraint whenEqual : Constraint) (state : Arguments) :
    Except Fault (List Contract) := do
  let equal ← pin state slot constraint
  let different ← pin state slot constraint.negate
  return [⟨equal, whenEqual⟩, ⟨different, whenEqual.negate⟩]

/-- A comparison of a parameter with a literal, with this result when they are equal. -/
def compare (states : List Arguments) (left right : Expr) (whenEqual : Constraint) :
    Except Fault (List Contract) := do
  match i.comparison? left right with
  | none => return []
  | some (slot, constraint) =>
    let contracts ← states.mapM (compareState slot constraint whenEqual)
    return contracts.flatten

/-- One state under the bare use of a parameter: both values while nothing is
known of it, and what is known otherwise. -/
def useState (slot : Nat) (state : Arguments) : Except Fault (List Contract) := do
  match state[slot]? with
  | none => throw (.noSlot slot)
  | some .any =>
    let whenTrue ← pin state slot .isTrue
    let whenFalse ← pin state slot .isFalse
    return [⟨whenTrue, .isTrue⟩, ⟨whenFalse, .isFalse⟩]
  | some known => return [⟨state, known⟩]

def useParam (states : List Arguments) (slot : Nat) : Except Fault (List Contract) := do
  let contracts ← states.mapM (useState slot)
  return contracts.flatten

/-- One state under a type test: null is an instance of no type. -/
def testState (slot : Nat) (state : Arguments) : Except Fault Contract := do
  let isNull ← pin state slot .null
  return ⟨isNull, .isFalse⟩

section Nesting

variable (nested : List Arguments → ExprId → Except Fault (List Contract))

/-- Operands from left to right. A result of `stop` is final; the opposite
carries its states to the next operand, and to the end. -/
def shortCircuit (stop : Constraint) : List Arguments → List ExprId → Except Fault (List Contract)
  | live, [] => return Contract.each live stop.negate
  | live, operand :: operands => do
    let contracts ← nested live operand
    let others ←
      shortCircuit stop (Contract.argumentsWith stop.negate contracts) operands
    return contracts.filter (·.result == stop) ++ others

/-- An expression under states that are neither none nor too many. -/
def evalNode (states : List Arguments) : Expr → Except Fault (List Contract)
  | .chain .equal [left, right] _ => do
    let left ← i.expr left
    let right ← i.expr right
    i.compare states left right .isTrue
  | .chain .notEqual [left, right] _ => do
    let left ← i.expr left
    let right ← i.expr right
    i.compare states left right .isFalse
  | .chain .and operands _ => shortCircuit nested .isFalse states operands
  | .chain .or operands _ => shortCircuit nested .isTrue states operands
  | .conditional condition whenTrue whenFalse _ => do
    let contracts ← nested states condition
    let first ← nested (Contract.argumentsWith .isTrue contracts) whenTrue
    let second ← nested (Contract.argumentsWith .isFalse contracts) whenFalse
    return first ++ second
  | .paren inner _ => nested states inner
  | .unary .not operand _ => do
    let contracts ← nested states operand
    return Contract.negated contracts
  | .instanceOf operand _ _ => do
    let operand ← i.expr operand
    match i.paramOf? operand with
    | some slot => states.mapM (testState slot)
    | none => return []
  | .literal literal _ _ =>
    match literal.constraint? with
    | some constraint => return Contract.each states constraint
    | none => return []
  | .name name _ =>
    match i.params.idxOf? name with
    | some slot => useParam states slot
    | none => return []
  | _ => return []

end Nesting

/-- Evaluates expressions that nest less than `depth` deep. -/
def evalExprWithin : Nat → List Arguments → ExprId → Except Fault (List Contract)
  | depth, states, id =>
    -- Neither without states nor with too many is the expression looked at.
    if states.isEmpty || decide (i.maxStates < states.length) then return []
    else
      match depth with
      | 0 => throw .circular
      | depth + 1 => do
        let expr ← i.expr id
        i.evalNode (evalExprWithin depth) states expr

/-- The levels for which a circle of expressions is followed. -/
def circleLimit : Nat := 4096

/-- The contracts of an expression under each of the states. -/
def evalExpr (states : List Arguments) (id : ExprId) : Except Fault (List Contract) :=
  i.evalExprWithin (i.body.exprs.size + 1 + circleLimit) states id

section Nesting

variable (nested : StmtId → Except Fault Bool)

def anyReturns : List StmtId → Except Fault Bool
  | [] => return false
  | id :: ids => do
    if ← nested id then return true
    else anyReturns ids

/-- Whether a statement always returns, given which of its parts do. -/
def returnsNode : Stmt → Except Fault Bool
  | .returns _ _ | .throws _ _ => return true
  | .block statements _ => anyReturns nested statements
  | .ifElse _ whenTrue (some whenFalse) _ => do
    if ← nested whenTrue then nested whenFalse
    else return false
  | .ifElse _ whenTrue none _ => do
    -- A branch that cannot be decided is a fault even where it does not count.
    discard (nested whenTrue)
    return false
  | _ => return false

end Nesting

def alwaysReturnsWithin : Nat → StmtId → Except Fault Bool
  | 0, _ => throw .circular
  | depth + 1, id => do
    let stmt ← i.stmt id
    returnsNode (alwaysReturnsWithin depth) stmt

/-- Whether a statement always ends in `return` or `throw`: it is one of these,
a block with such a statement anywhere, or an `if` whose branches both do. -/
def alwaysReturns (id : StmtId) : Except Fault Bool :=
  i.alwaysReturnsWithin (i.body.stmts.size + 1) id

/-- The contracts of one statement and, if the next statement is reached with
states that are known, those states. -/
structure Step where
  contracts : List Contract
  next : Option (List Arguments)
deriving DecidableEq, Repr

section Nesting

variable (nested : List Arguments → StmtId → Except Fault Step)

/-- Statements in order, as far as their states are known. -/
def evalSequence : List Arguments → List StmtId → Except Fault (List Contract)
  | _, [] => return []
  | states, id :: ids => do
    let step ← nested states id
    match step.next with
    | none => return step.contracts
    | some live =>
      let others ← evalSequence live ids
      return step.contracts ++ others

/-- One statement. States reach the next one only past an `if` without `else`
whose branch always returns, and then those under which the condition is false. -/
def evalStmtNode (states : List Arguments) : Stmt → Except Fault Step
  | .block [only] _ => do
    let contracts ← evalSequence nested states [only]
    return ⟨contracts, none⟩
  | .ifElse condition whenTrue whenFalse _ => do
    let results ← i.evalExpr states condition
    let first ← evalSequence nested (Contract.argumentsWith .isTrue results) [whenTrue]
    let live := Contract.argumentsWith .isFalse results
    match whenFalse with
    | some whenFalse =>
      let second ← evalSequence nested live [whenFalse]
      return ⟨first ++ second, none⟩
    | none =>
      -- If the branch may go on, what is known after it is not tracked.
      if ← i.alwaysReturns whenTrue then return ⟨first, some live⟩
      else return ⟨first, none⟩
  | .throws _ _ => return ⟨Contract.each states .fail, none⟩
  | .returns (some value) _ => do
    let contracts ← i.evalExpr states value
    return ⟨contracts, none⟩
  | .assert condition _ _ => do
    let results ← i.evalExpr states condition
    return ⟨Contract.each (Contract.argumentsWith .isFalse results) .fail, none⟩
  | _ => return ⟨[], none⟩

end Nesting

def evalStmtWithin : Nat → List Arguments → StmtId → Except Fault Step
  | 0, _, _ => throw .circular
  | depth + 1, states, id => do
    let stmt ← i.stmt id
    i.evalStmtNode (evalStmtWithin depth) states stmt

/-- The contracts of a sequence of statements under each of the states. -/
def evalStmts (states : List Arguments) (ids : List StmtId) : Except Fault (List Contract) :=
  evalSequence (i.evalStmtWithin (i.body.stmts.size + 1)) states ids

end Interpreter
end MethodContracts
