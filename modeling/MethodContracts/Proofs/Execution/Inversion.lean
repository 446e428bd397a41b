import MethodContracts.Proofs.Execution.Basic
import MethodContracts.Proofs.Inference.Trees

/-!
# What expressions of fixed meaning do

How the evaluation of each expression that asks about one parameter can end.
-/
namespace MethodContracts

/-- A literal that stands for a constraint has the one value it admits, and what
the opposite admits can be compared with that value. -/
theorem Literal.value_of_constraint (kind : Literal) (constraint : Constraint)
    (found : kind.constraint? = some constraint) :
    ∃ value, kind.value? = some value ∧ (∀ other, constraint.admits other = true ↔ other = value) ∧
      ∀ other, constraint.negate.admits other = true →
        other ≠ value ∧ (value ≠ .null → other ≠ .null) := by
  -- Only null, true and false stand for constraints.
  cases kind <;> cases found <;> refine ⟨_, rfl, ?_, ?_⟩ <;> intro other <;>
    cases other <;> simp [Constraint.admits, Constraint.negate]

/-- A chain that can end early ends with a truth value. -/
theorem BinaryOp.stop_eq_ofBool {op : BinaryOp} {stop : Constraint} (stops : op.stop? = some stop) :
    ∃ truth, stop = .ofBool truth := by
  cases op with
  | and =>
    cases stops
    exact ⟨false, rfl⟩
  | or =>
    cases stops
    exact ⟨true, rfl⟩
  | _ => cases stops

/-- What a comparison by the operator yields for equal values. -/
def BinaryOp.whenEqual? : BinaryOp → Option Bool
  | .equal => some true
  | .notEqual => some false
  | _ => none

namespace Tree

variable {params : List String}

/-- A comparison is of one parameter with one value. -/
theorem Compares.unique {left right : Expr} {slot otherSlot : Nat} {value otherValue : Value}
    (compares : Compares params left right slot value)
    (other : Compares params left right otherSlot otherValue) :
    otherSlot = slot ∧ otherValue = value := by
  cases compares with
  | paramFirst named constant | literalFirst named constant =>
    -- A name is no literal, so both name the parameter on the same side.
    obtain ⟨otherNamed, otherConstant⟩ | ⟨otherNamed, otherConstant⟩ := other
    rw [named] at otherNamed
    rw [constant] at otherConstant
    cases otherNamed
    cases otherConstant
    exact ⟨rfl, rfl⟩

theorem Compares.slot_lt {left right : Expr} {slot : Nat} {value : Value}
    (compares : Compares params left right slot value) : slot < params.length := by
  cases compares with
  | paramFirst named | literalFirst named => exact slot_lt_length named

namespace Expr.Evaluates

variable {values after : Values} {outcome : ExprOutcome}

theorem of_name {word : String} {span : Span} {slot : Nat} (named : params.idxOf? word = some slot)
    (run : (Expr.name word span).Evaluates params values outcome after) :
    after = values ∧ outcome = .value (values slot) := by
  cases run with
  | name otherNamed =>
    rw [named] at otherNamed
    cases otherNamed
    exact ⟨rfl, rfl⟩
  | unknown foreign => exact absurd (.name named) foreign

theorem of_literal {kind : Literal} {text : String} {span : Span} {value : Value}
    (constant : kind.value? = some value)
    (run : (Expr.literal kind text span).Evaluates params values outcome after) :
    after = values ∧ outcome = .value value := by
  cases run with
  | literal otherConstant =>
    rw [constant] at otherConstant
    cases otherConstant
    exact ⟨rfl, rfl⟩
  | unknown foreign => exact absurd (.literal constant) foreign

/-- `null` cannot be compared with `true` or `false`; all else can be compared. -/
theorem of_comparison {op : BinaryOp} {whenEqual : Bool} (meaning : op.whenEqual? = some whenEqual)
    {left right : Expr} {span : Span} {slot : Nat} {value : Value}
    (compares : Compares params left right slot value)
    (run : (Expr.chain op [left, right] span).Evaluates params values outcome after)
    (comparable : value ≠ .null → values slot ≠ .null) :
    after = values ∧
      outcome = .value (.ofBool (if values slot = value then whenEqual else !whenEqual)) := by
  cases run with
  | and | or => cases meaning
  | equal other | notEqual other =>
    obtain ⟨rfl, rfl⟩ := compares.unique other
    cases meaning
    exact ⟨rfl, by split <;> simp_all⟩
  -- Throwing takes null against a truth value, which is excluded here.
  | unboxed _ other boolean absent =>
    obtain ⟨rfl, rfl⟩ := compares.unique other
    exact absurd absent (comparable boolean)
  | unknown foreign =>
    cases op with
    | equal => exact absurd (.equal compares) foreign
    | notEqual => exact absurd (.notEqual compares) foreign
    | _ => cases meaning

/-- A chain that can end early runs its operands from left to right. -/
theorem of_chain {op : BinaryOp} {stop : Bool} (stops : op.stop? = some (.ofBool stop))
    {operands : List Expr} {span : Span}
    (run : (Expr.chain op operands span).Evaluates params values outcome after) :
    EvaluatesChain params stop operands values outcome after := by
  cases run with
  -- The rule fixes the operator, and with it the stop; other operators have none.
  | and run =>
    cases stop with
    | true => cases stops
    | false => exact run
  | or run =>
    cases stop with
    | true => exact run
    | false => cases stops
  | equal | notEqual => cases stops
  | unboxed comparison =>
    rcases comparison with rfl | rfl
    · cases stops
    · cases stops
  | unknown foreign =>
    cases op with
    | and => exact absurd .and foreign
    | or => exact absurd .or foreign
    | _ => cases stops

theorem of_instanceOf {word type : String} {nameSpan span : Span} {slot : Nat}
    (named : params.idxOf? word = some slot)
    (run : (Expr.instanceOf (.name word nameSpan) type span).Evaluates params values outcome after)
    (absent : values slot = .null) : after = values ∧ outcome = .value .isFalse := by
  cases run with
  | instanceNull => exact ⟨rfl, rfl⟩
  -- A null reference is an instance of no type.
  | instanceObject otherNamed notNull =>
    rw [named] at otherNamed
    cases otherNamed
    exact absurd absent notNull
  | unknown foreign => exact absurd (.instanceOf named) foreign

end Expr.Evaluates

/-! ## Decided conditions -/

/-- The expression comes out as `truth` and leaves the parameters as they are. -/
def Expr.Decides (params : List String) (expr : Expr) (values : Values) (truth : Bool) : Prop :=
  ∀ outcome after, expr.Evaluates params values outcome after →
    after = values ∧ outcome = .value (.ofBool truth)

namespace Expr.Decides

variable {values after : Values} {outcome : ExprOutcome} {completion : Completion}

theorem not {operand : Expr} {span : Span} {truth : Bool}
    (decided : operand.Decides params values truth) :
    (unary .not operand span).Decides params values !truth := by
  intro outcome after run
  cases run with
  | @not _ _ _ other _ run =>
    obtain ⟨same, equal⟩ := decided _ _ run
    rw [ExprOutcome.value.injEq, Value.ofBool_inj] at equal
    rw [equal]
    exact ⟨same, rfl⟩
  -- The operand neither throws nor leaves anything open.
  | notThrown run => cases (decided _ _ run).2
  | notOpen run neither =>
    cases (decided _ _ run).2
    exact absurd rfl (neither truth)
  | unknown foreign => exact absurd .not foreign

/-- A conditional runs the branch that its condition takes. -/
theorem conditional {condition whenTrue whenFalse : Expr} {span : Span} {taken : Bool}
    (decided : condition.Decides params values taken)
    (run : (Expr.conditional condition whenTrue whenFalse span).Evaluates params values outcome
      after) :
    (if taken then whenTrue else whenFalse).Evaluates params values outcome after := by
  cases run with
  -- How the condition ran is how it was decided, so one branch remains.
  | whenTrue first run =>
    obtain ⟨rfl, equal⟩ := decided _ _ first
    cases taken with
    | true => exact run
    | false => cases equal
  | whenFalse first run =>
    obtain ⟨rfl, equal⟩ := decided _ _ first
    cases taken with
    | true => cases equal
    | false => exact run
  | whenThrown run => cases (decided _ _ run).2
  | whenOpen run neither =>
    cases (decided _ _ run).2
    exact absurd rfl (neither taken)
  | unknown foreign => exact absurd .conditional foreign

/-- An operand that is `stop` ends its chain. -/
theorem chain_stop {stop : Bool} {operand : Expr} {operands : List Expr}
    (decided : operand.Decides params values stop)
    (run : EvaluatesChain params stop (operand :: operands) values outcome after) :
    after = values ∧ outcome = .value (.ofBool stop) := by
  cases run with
  | stop run => exact decided _ _ run
  -- The operand would be both stop and its opposite.
  | next first =>
    have impossible := (decided _ _ first).2
    simp [Value.ofBool_inj] at impossible
  | thrown run => cases (decided _ _ run).2
  | «open» run neither =>
    cases (decided _ _ run).2
    exact absurd rfl (neither stop)

/-- A chain goes on with the other operands after one that is not `stop`. -/
theorem chain_next {stop : Bool} {operand : Expr} {operands : List Expr}
    (decided : operand.Decides params values !stop)
    (run : EvaluatesChain params stop (operand :: operands) values outcome after) :
    EvaluatesChain params stop operands values outcome after := by
  cases run with
  | stop first =>
    have impossible := (decided _ _ first).2
    simp [Value.ofBool_inj] at impossible
  | next first rest =>
    obtain ⟨rfl, _⟩ := decided _ _ first
    exact rest
  | thrown run => cases (decided _ _ run).2
  | «open» run neither =>
    cases (decided _ _ run).2
    exact absurd rfl (neither _)

theorem ifTrue {condition : Expr} {whenTrue : Stmt} {whenFalse : Option Stmt} {span : Span}
    (decided : condition.Decides params values true)
    (run : (Stmt.ifElse condition whenTrue whenFalse span).Runs params values completion after) :
    whenTrue.Runs params values completion after := by
  cases run with
  | ifTrue first run =>
    obtain ⟨rfl, _⟩ := decided _ _ first
    exact run
  | ifFalse first => cases (decided _ _ first).2
  | ifSkipped first => cases (decided _ _ first).2
  | ifThrown run => cases (decided _ _ run).2
  | ifOpen run neither =>
    cases (decided _ _ run).2
    exact absurd rfl (neither true)
  | unknown foreign => cases foreign

theorem ifFalse {condition : Expr} {whenTrue whenFalse : Stmt} {span : Span}
    (decided : condition.Decides params values false)
    (run : (Stmt.ifElse condition whenTrue (some whenFalse) span).Runs params values completion
      after) :
    whenFalse.Runs params values completion after := by
  cases run with
  | ifTrue first => cases (decided _ _ first).2
  | ifFalse first run =>
    obtain ⟨rfl, _⟩ := decided _ _ first
    exact run
  | ifThrown run => cases (decided _ _ run).2
  | ifOpen run neither =>
    cases (decided _ _ run).2
    exact absurd rfl (neither false)
  | unknown foreign => cases foreign

/-- A guard is passed when its condition fails. -/
theorem guard {condition : Expr} {whenTrue : Stmt} {span : Span} {stmts : List Stmt}
    (decided : condition.Decides params values false)
    (run : Stmt.RunsAll params (.ifElse condition whenTrue none span :: stmts) values completion
      after) :
    Stmt.RunsAll params stmts values completion after := by
  -- The guard itself completes normally and changes nothing.
  have passed : ∀ first middle,
      (Stmt.ifElse condition whenTrue none span).Runs params values first middle →
        first = .normal ∧ middle = values := by
    intro first middle run
    cases run with
    | ifTrue taken => cases (decided _ _ taken).2
    | ifSkipped taken => exact ⟨rfl, (decided _ _ taken).1⟩
    | ifThrown run => cases (decided _ _ run).2
    | ifOpen run neither =>
      cases (decided _ _ run).2
      exact absurd rfl (neither false)
    | unknown foreign => cases foreign
  cases run with
  | next first later =>
    obtain ⟨_, rfl⟩ := passed _ _ first
    exact later
  | stop first abrupt => exact absurd (passed _ _ first).1 abrupt

end Expr.Decides

/-! ## Statements that consist of statements -/

namespace Stmt

variable {values after : Values} {completion : Completion}

theorem Runs.of_block {statements : List Stmt} {span : Span}
    (run : (Stmt.block statements span).Runs params values completion after) :
    RunsAll params statements values completion after := by
  cases run with
  | block run => exact run
  | unknown foreign => cases foreign

/-- A statement runs as the statements it consists of do. -/
theorem Runs.statements {stmt : Stmt} (run : stmt.Runs params values completion after) :
    RunsAll params stmt.statements values completion after := by
  cases stmt with
  | block statements span => exact run.of_block
  | _ =>
    -- Any other statement is a sequence of one, whether or not it is left early.
    by_cases normal : completion = .normal
    · subst normal
      exact .next run .none
    · exact .stop run normal

/-- Nothing is run after a statement that never completes normally. -/
theorem RunsAll.first {stmt : Stmt} {stmts : List Stmt}
    (abrupt : ∀ middle, ¬stmt.Runs params values .normal middle)
    (run : RunsAll params (stmt :: stmts) values completion after) :
    stmt.Runs params values completion after := by
  cases run with
  | next first => exact absurd first (abrupt _)
  | stop first => exact first

end Stmt

end Tree
end MethodContracts
