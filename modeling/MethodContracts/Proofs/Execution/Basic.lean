import MethodContracts.Contract.Basic
import MethodContracts.Proofs.Tree.Children

/-!
# Execution of bodies

What a body does at run time, as a relation between the values of its parameters
and how it ends. Names of parameters, `!`, `&&`, `||`, `?:`, parentheses,
comparisons of a parameter with `null`, `true` or `false`, type tests of a
parameter, `if`, `return`, `throw`, `assert` and blocks mean what they say, with
assertions switched on. Every other expression and statement may do anything: it
may assign parameters, yield any value, and end in any way.

An execution that does not end has no outcome.
-/
namespace MethodContracts

/-- What an argument or a result is at run time. -/
inductive Value where
  | null
  | isTrue
  | isFalse
  /-- Any other object. -/
  | object (identity : Nat)
deriving DecidableEq, Repr

def Value.ofBool : Bool → Value
  | true => .isTrue
  | false => .isFalse

theorem Value.ofBool_inj {left right : Bool} :
    Value.ofBool left = .ofBool right ↔ left = right := by
  cases left <;> cases right <;> decide

/-- The value of each parameter, by its position. -/
abbrev Values := Nat → Value

/-- Whether a constraint admits a value; `fail` admits none. -/
def Constraint.admits : Constraint → Value → Bool
  | .any, _ => true
  | .null, value => decide (value = .null)
  | .notNull, value => decide (value ≠ .null)
  | .isTrue, value => decide (value = .isTrue)
  | .isFalse, value => decide (value = .isFalse)
  | .fail, _ => false

namespace Constraint

/-- The constraint that admits one truth value only. -/
def ofBool : Bool → Constraint
  | true => .isTrue
  | false => .isFalse

@[simp]
theorem negate_ofBool (truth : Bool) : (ofBool truth).negate = ofBool !truth := by
  cases truth <;> rfl

@[simp]
theorem admits_ofBool (truth : Bool) (value : Value) :
    (ofBool truth).admits value = true ↔ value = .ofBool truth := by
  cases truth <;> simp [ofBool, admits, Value.ofBool]

end Constraint

/-- Every argument is admitted by its constraint. -/
def Arguments.Admits (arguments : Arguments) (values : Values) : Prop :=
  ∀ (slot : Nat) (constraint : Constraint), arguments[slot]? = some constraint →
    constraint.admits (values slot) = true

/-- The value of a literal that a parameter can be compared with. -/
def Literal.value? : Literal → Option Value
  | .null => some .null
  | .isTrue => some .isTrue
  | .isFalse => some .isFalse
  | .int | .string | .char => none

/-- How the evaluation of an expression ends. -/
inductive ExprOutcome where
  | value (value : Value)
  | thrown
deriving DecidableEq, Repr

/-- How the execution of a statement ends. -/
inductive Completion where
  | normal
  /-- With the value, if there is one. -/
  | returned (value : Option Value)
  | thrown
  /-- By `break` or `continue`. -/
  | jumped
deriving DecidableEq, Repr

/-- A contract with this result describes the completion: the result admits what
is returned, and `fail` stands for an exception. -/
def Completion.Meets : Completion → Constraint → Prop
  | .returned (some value), result => result.admits value = true
  | .thrown, result => result = .fail
  | _, _ => False

namespace Tree

/-- A parameter on one side of a comparison and a literal on the other. -/
inductive Compares (params : List String) : Expr → Expr → Nat → Value → Prop where
  | paramFirst {word kind text nameSpan literalSpan slot value}
    (named : params.idxOf? word = some slot) (constant : kind.value? = some value) :
    Compares params (.name word nameSpan) (.literal kind text literalSpan) slot value
  | literalFirst {word kind text nameSpan literalSpan slot value}
    (named : params.idxOf? word = some slot) (constant : kind.value? = some value) :
    Compares params (.literal kind text literalSpan) (.name word nameSpan) slot value

/-- The expressions whose meaning is fixed, given that of their parts. -/
inductive Expr.Understood (params : List String) : Expr → Prop where
  | name {word span slot} (named : params.idxOf? word = some slot) :
    Understood params (.name word span)
  | literal {kind text span value} (constant : kind.value? = some value) :
    Understood params (.literal kind text span)
  | paren {inner span} : Understood params (.paren inner span)
  | not {operand span} : Understood params (.unary .not operand span)
  | and {operands span} : Understood params (.chain .and operands span)
  | or {operands span} : Understood params (.chain .or operands span)
  | conditional {condition whenTrue whenFalse span} :
    Understood params (.conditional condition whenTrue whenFalse span)
  | equal {left right span slot value} (compares : Compares params left right slot value) :
    Understood params (.chain .equal [left, right] span)
  | notEqual {left right span slot value} (compares : Compares params left right slot value) :
    Understood params (.chain .notEqual [left, right] span)
  | instanceOf {word nameSpan type span slot} (named : params.idxOf? word = some slot) :
    Understood params (.instanceOf (.name word nameSpan) type span)

mutual

/-- `Evaluates params expr values outcome after`: with these values of the
parameters the expression may end so, and leave those values. A condition that is
neither true nor false leaves everything open, and comparing `null` with `true` or
`false` may throw. -/
inductive Expr.Evaluates (params : List String) : Expr → Values → ExprOutcome → Values → Prop where
  | name {word span slot values} (named : params.idxOf? word = some slot) :
    Evaluates params (.name word span) values (.value (values slot)) values
  | literal {kind text span value values} (constant : kind.value? = some value) :
    Evaluates params (.literal kind text span) values (.value value) values
  | paren {inner span values outcome after} (run : Evaluates params inner values outcome after) :
    Evaluates params (.paren inner span) values outcome after
  | not {operand span values truth after}
    (run : Evaluates params operand values (.value (.ofBool truth)) after) :
    Evaluates params (.unary .not operand span) values (.value (.ofBool !truth)) after
  | notThrown {operand span values after} (run : Evaluates params operand values .thrown after) :
    Evaluates params (.unary .not operand span) values .thrown after
  | notOpen {operand span values value middle outcome after}
    (run : Evaluates params operand values (.value value) middle)
    (neither : ∀ truth, value ≠ .ofBool truth) :
    Evaluates params (.unary .not operand span) values outcome after
  | and {operands span values outcome after}
    (run : EvaluatesChain params false operands values outcome after) :
    Evaluates params (.chain .and operands span) values outcome after
  | or {operands span values outcome after}
    (run : EvaluatesChain params true operands values outcome after) :
    Evaluates params (.chain .or operands span) values outcome after
  | whenTrue {condition whenTrue whenFalse span values middle outcome after}
    (decides : Evaluates params condition values (.value .isTrue) middle)
    (run : Evaluates params whenTrue middle outcome after) :
    Evaluates params (.conditional condition whenTrue whenFalse span) values outcome after
  | whenFalse {condition whenTrue whenFalse span values middle outcome after}
    (decides : Evaluates params condition values (.value .isFalse) middle)
    (run : Evaluates params whenFalse middle outcome after) :
    Evaluates params (.conditional condition whenTrue whenFalse span) values outcome after
  | whenThrown {condition whenTrue whenFalse span values after}
    (run : Evaluates params condition values .thrown after) :
    Evaluates params (.conditional condition whenTrue whenFalse span) values .thrown after
  | whenOpen {condition whenTrue whenFalse span values value middle outcome after}
    (run : Evaluates params condition values (.value value) middle)
    (neither : ∀ truth, value ≠ .ofBool truth) :
    Evaluates params (.conditional condition whenTrue whenFalse span) values outcome after
  | equal {left right span slot value values} (compares : Compares params left right slot value) :
    Evaluates params (.chain .equal [left, right] span) values
      (.value (.ofBool (decide (values slot = value)))) values
  | notEqual {left right span slot value values}
    (compares : Compares params left right slot value) :
    Evaluates params (.chain .notEqual [left, right] span) values
      (.value (.ofBool (decide (values slot ≠ value)))) values
  | unboxed {op left right span slot value values} (comparison : op = .equal ∨ op = .notEqual)
    (compares : Compares params left right slot value) (boolean : value ≠ .null)
    (absent : values slot = .null) :
    Evaluates params (.chain op [left, right] span) values .thrown values
  | instanceNull {word nameSpan type span slot values} (named : params.idxOf? word = some slot)
    (isNull : values slot = .null) :
    Evaluates params (.instanceOf (.name word nameSpan) type span) values (.value .isFalse) values
  | instanceObject {word nameSpan type span slot values truth}
    (named : params.idxOf? word = some slot) (notNull : values slot ≠ .null) :
    Evaluates params (.instanceOf (.name word nameSpan) type span) values
      (.value (.ofBool truth)) values
  | unknown {expr values outcome after} (foreign : ¬Understood params expr) :
    Evaluates params expr values outcome after

/-- Operands from left to right, until one is `stop`. -/
inductive Expr.EvaluatesChain (params : List String) :
    Bool → List Expr → Values → ExprOutcome → Values → Prop where
  | none {stop values} : EvaluatesChain params stop [] values (.value (.ofBool !stop)) values
  | stop {stop operand operands values after}
    (run : Evaluates params operand values (.value (.ofBool stop)) after) :
    EvaluatesChain params stop (operand :: operands) values (.value (.ofBool stop)) after
  | next {stop operand operands values middle outcome after}
    (first : Evaluates params operand values (.value (.ofBool !stop)) middle)
    (rest : EvaluatesChain params stop operands middle outcome after) :
    EvaluatesChain params stop (operand :: operands) values outcome after
  | thrown {stop operand operands values after}
    (run : Evaluates params operand values .thrown after) :
    EvaluatesChain params stop (operand :: operands) values .thrown after
  | open {stop operand operands values value middle outcome after}
    (run : Evaluates params operand values (.value value) middle)
    (neither : ∀ truth, value ≠ .ofBool truth) :
    EvaluatesChain params stop (operand :: operands) values outcome after

end

/-- The statements whose meaning is fixed, given that of their parts. -/
def Stmt.isUnderstood : Stmt → Bool
  | .block _ _ | .ifElse _ _ _ _ | .throws _ _ | .returns _ _ | .assert _ _ _ => true
  | .while _ _ _ | .local _ _ _ | .expr _ _ | .skipped _ _ | .empty _ => false

mutual

/-- `Runs params stmt values completion after`: with these values of the
parameters the statement may complete so, and leave those values. -/
inductive Stmt.Runs (params : List String) : Stmt → Values → Completion → Values → Prop where
  | block {statements span values completion after}
    (run : RunsAll params statements values completion after) :
    Runs params (.block statements span) values completion after
  | ifTrue {condition whenTrue whenFalse span values middle completion after}
    (decides : condition.Evaluates params values (.value .isTrue) middle)
    (run : Runs params whenTrue middle completion after) :
    Runs params (.ifElse condition whenTrue whenFalse span) values completion after
  | ifFalse {condition whenTrue whenFalse span values middle completion after}
    (decides : condition.Evaluates params values (.value .isFalse) middle)
    (run : Runs params whenFalse middle completion after) :
    Runs params (.ifElse condition whenTrue (some whenFalse) span) values completion after
  | ifSkipped {condition whenTrue span values after}
    (decides : condition.Evaluates params values (.value .isFalse) after) :
    Runs params (.ifElse condition whenTrue none span) values .normal after
  | ifThrown {condition whenTrue whenFalse span values after}
    (run : condition.Evaluates params values .thrown after) :
    Runs params (.ifElse condition whenTrue whenFalse span) values .thrown after
  | ifOpen {condition whenTrue whenFalse span values value middle completion after}
    (run : condition.Evaluates params values (.value value) middle)
    (neither : ∀ truth, value ≠ .ofBool truth) :
    Runs params (.ifElse condition whenTrue whenFalse span) values completion after
  | throws {value span values outcome after}
    (run : value.Evaluates params values outcome after) :
    Runs params (.throws value span) values .thrown after
  | returnsNothing {span values} : Runs params (.returns none span) values (.returned none) values
  | returns {value span values result after}
    (run : value.Evaluates params values (.value result) after) :
    Runs params (.returns (some value) span) values (.returned (some result)) after
  | returnsThrown {value span values after}
    (run : value.Evaluates params values .thrown after) :
    Runs params (.returns (some value) span) values .thrown after
  | assertTrue {condition message span values after}
    (decides : condition.Evaluates params values (.value .isTrue) after) :
    Runs params (.assert condition message span) values .normal after
  | assertFalse {condition message span values middle after}
    (decides : condition.Evaluates params values (.value .isFalse) middle) :
    Runs params (.assert condition message span) values .thrown after
  | assertThrown {condition message span values after}
    (run : condition.Evaluates params values .thrown after) :
    Runs params (.assert condition message span) values .thrown after
  | assertOpen {condition message span values value middle completion after}
    (run : condition.Evaluates params values (.value value) middle)
    (neither : ∀ truth, value ≠ .ofBool truth) :
    Runs params (.assert condition message span) values completion after
  | unknown {stmt values completion after} (foreign : stmt.isUnderstood = false) :
    Runs params stmt values completion after

/-- Statements in order, until one does not complete normally. -/
inductive Stmt.RunsAll (params : List String) :
    List Stmt → Values → Completion → Values → Prop where
  | none {values} : RunsAll params [] values .normal values
  | next {stmt stmts values middle completion after}
    (first : Runs params stmt values .normal middle)
    (rest : RunsAll params stmts middle completion after) :
    RunsAll params (stmt :: stmts) values completion after
  | stop {stmt stmts values completion after} (run : Runs params stmt values completion after)
    (abrupt : completion ≠ .normal) : RunsAll params (stmt :: stmts) values completion after

end

end Tree
end MethodContracts
