import MethodContracts.Inference.Evaluate
import MethodContracts.Proofs.Tree.Children

/-!
# Evaluating trees under constraints

The contracts of a tree, by recursion on the tree. Nothing can fail: a tree has
no references, and a slot that a state does not have is not pinned. The limit on
the states of an expression may be left out.
-/
namespace MethodContracts

namespace Arguments

/-- Whether an expression is looked at under these states: there are some, and
not more than the limit. -/
def heeded (limit : Option Nat) (states : List Arguments) : Bool :=
  !states.isEmpty && limit.all fun most => decide (states.length ≤ most)

theorem heeded_some (most : Nat) (states : List Arguments) :
    heeded (some most) states = !(states.isEmpty || decide (most < states.length)) := by
  simp only [heeded, Option.all_some, Bool.not_or, ← decide_not, Nat.not_lt]

end Arguments

namespace Contract

theorem mem_argumentsWith (result : Constraint) (contracts : List Contract) (state : Arguments) :
    state ∈ argumentsWith result contracts ↔ ⟨state, result⟩ ∈ contracts := by
  simp only [argumentsWith, List.mem_map, List.mem_filter, beq_iff_eq]
  constructor
  · rintro ⟨contract, ⟨member, rfl⟩, rfl⟩
    exact member
  · intro member
    exact ⟨_, ⟨member, rfl⟩, rfl⟩

theorem mem_each (states : List Arguments) (result : Constraint) (contract : Contract) :
    contract ∈ each states result ↔ contract.arguments ∈ states ∧ contract.result = result := by
  simp only [each, List.mem_map]
  constructor
  · rintro ⟨state, member, rfl⟩
    exact ⟨member, rfl⟩
  · rintro ⟨member, rfl⟩
    exact ⟨contract.arguments, member, rfl⟩

theorem mem_negated (contracts : List Contract) (contract : Contract) :
    contract ∈ negated contracts ↔ (contract.result = .isTrue ∨ contract.result = .isFalse) ∧
      ⟨contract.arguments, contract.result.negate⟩ ∈ contracts := by
  simp only [negated, List.mem_map, List.mem_filter, Bool.or_eq_true, beq_iff_eq]
  constructor
  · -- A boolean result is what its negation is negated from.
    rintro ⟨origin, ⟨member, boolean⟩, rfl⟩
    rw [Constraint.negate_negate]
    rcases boolean with equal | equal <;> simp only [equal, Constraint.negate] <;>
      exact ⟨by simp, equal ▸ member⟩
  · rintro ⟨boolean, member⟩
    refine ⟨_, ⟨member, ?_⟩, by simp only [Constraint.negate_negate]⟩
    rcases boolean with equal | equal <;> simp [equal, Constraint.negate]

end Contract

theorem slot_lt_length {params : List String} {word : String} {slot : Nat}
    (named : params.idxOf? word = some slot) : slot < params.length := by
  rw [List.idxOf?, List.findIdx?_eq_some_iff_findIdx_eq] at named
  exact named.1

/-- The result that ends a chain of the operator early. -/
def BinaryOp.stop? : BinaryOp → Option Constraint
  | .and => some .isFalse
  | .or => some .isTrue
  | _ => none

theorem BinaryOp.stop_ne_negate {op : BinaryOp} {stop : Constraint} (stops : op.stop? = some stop) :
    stop ≠ stop.negate := by
  cases op with
  | and | or =>
    cases stops
    decide
  | _ => cases stops

namespace Tree

/-- The questions that evaluation can answer for a state at once. -/
inductive Atom where
  /-- A parameter against a literal, with the result when they are equal. -/
  | comparison (slot : Nat) (constraint whenEqual : Constraint)
  | typeTest (slot : Nat)
  | constant (constraint : Constraint)
  /-- The bare use of a parameter. -/
  | use (slot : Nat)
  /-- Nothing that is understood. -/
  | unknown
deriving DecidableEq, Repr

/-- The contracts of one state. A comparison and a type test pin their slot; a
bare use pins it only while nothing is known of it. -/
def Atom.yield (state : Arguments) : Atom → List Contract
  | .comparison slot constraint whenEqual =>
    [⟨state.set slot constraint, whenEqual⟩, ⟨state.set slot constraint.negate, whenEqual.negate⟩]
  | .typeTest slot => [⟨state.set slot .null, .isFalse⟩]
  | .constant constraint => [⟨state, constraint⟩]
  | .use slot =>
    match state[slot]? with
    | none => []
    | some .any => [⟨state.set slot .isTrue, .isTrue⟩, ⟨state.set slot .isFalse, .isFalse⟩]
    | some known => [⟨state, known⟩]
  | .unknown => []

namespace Expr

/-- Evaluation does not evaluate parts of an atomic expression. -/
def isAtomic : Expr → Bool
  | .chain op _ _ => op.stop?.isNone
  | .conditional _ _ _ _ | .paren _ _ | .unary .not _ _ => false
  | _ => true

/-- Induction along evaluation: what passes from the parts that are evaluated to
an expression, and what holds of atomic expressions, holds of all. -/
@[elab_as_elim]
theorem byShape {motive : Expr → Prop}
    (chain : ∀ op stop operands span, op.stop? = some stop →
      (∀ operand ∈ operands, motive operand) → motive (.chain op operands span))
    (conditional : ∀ condition whenTrue whenFalse span, motive condition → motive whenTrue →
      motive whenFalse → motive (.conditional condition whenTrue whenFalse span))
    (paren : ∀ inner span, motive inner → motive (.paren inner span))
    (not : ∀ operand span, motive operand → motive (.unary .not operand span))
    (atomic : ∀ expr : Expr, expr.isAtomic = true → motive expr) (expr : Expr) :
    motive expr := by
  induction expr using byChildren with
  | step expr ih =>
    cases expr with
    | chain op operands span =>
      -- Of a chain the operands are evaluated only if it can end early.
      cases stops : op.stop? with
      | none => exact atomic _ (by simp only [isAtomic, stops, Option.isNone_none])
      | some stop => exact chain op stop operands span stops ih
    | conditional condition whenTrue whenFalse span =>
      exact conditional condition whenTrue whenFalse span (ih _ (by simp [children]))
        (ih _ (by simp [children])) (ih _ (by simp [children]))
    | paren inner span => exact paren inner span (ih _ (by simp [children]))
    | unary op operand span =>
      cases op with
      | not => exact not operand span (ih _ (by simp [children]))
      | _ => exact atomic _ rfl
    | _ => exact atomic _ rfl

variable (params : List String)

/-- The parameter that an expression is. -/
def slot? : Expr → Option Nat
  | .name word _ => params.idxOf? word
  | _ => none

/-- The constraint that an expression always satisfies, if it is such a literal. -/
def constant? : Expr → Option Constraint
  | .literal kind _ _ => kind.constraint?
  | _ => none

/-- A parameter and the literal it is compared with, the left operand first. -/
def comparison? (left right : Expr) : Option (Nat × Constraint) :=
  match left.slot? params, right.constant? with
  | some slot, some constraint => some (slot, constraint)
  | _, _ =>
    match right.slot? params, left.constant? with
    | some slot, some constraint => some (slot, constraint)
    | _, _ => none

/-- What an atomic expression asks of a state. -/
def atom : Expr → Atom
  | .chain .equal [left, right] _ =>
    match left.comparison? params right with
    | some (slot, constraint) => .comparison slot constraint .isTrue
    | none => .unknown
  | .chain .notEqual [left, right] _ =>
    match left.comparison? params right with
    | some (slot, constraint) => .comparison slot constraint .isFalse
    | none => .unknown
  | .instanceOf operand _ _ =>
    match operand.slot? params with
    | some slot => .typeTest slot
    | none => .unknown
  | .literal kind _ _ =>
    match kind.constraint? with
    | some constraint => .constant constraint
    | none => .unknown
  | .name word _ =>
    match params.idxOf? word with
    | some slot => .use slot
    | none => .unknown
  | _ => .unknown

variable (limit : Option Nat)

mutual

/-- The contracts of an expression under each of the states. -/
def eval (expr : Expr) (states : List Arguments) : List Contract :=
  if Arguments.heeded limit states then
    match expr with
    | .chain op operands span =>
      match op.stop? with
      | some stop => evalChain stop operands states
      | none => states.flatMap fun state => ((chain op operands span).atom params).yield state
    | .conditional condition whenTrue whenFalse _ =>
      let contracts := condition.eval states
      whenTrue.eval (Contract.argumentsWith .isTrue contracts) ++
        whenFalse.eval (Contract.argumentsWith .isFalse contracts)
    | .paren inner _ => inner.eval states
    | .unary .not operand _ => Contract.negated (operand.eval states)
    | expr => states.flatMap fun state => (expr.atom params).yield state
  else []

/-- The contracts of operands from left to right: a result of `stop` is final,
the opposite goes on. -/
def evalChain (stop : Constraint) : List Expr → List Arguments → List Contract
  | [], live => Contract.each live stop.negate
  | operand :: operands, live =>
    let contracts := operand.eval live
    contracts.filter (·.result == stop) ++
      evalChain stop operands (Contract.argumentsWith stop.negate contracts)

end

variable {params limit}

theorem slot?_eq_some {expr : Expr} {slot : Nat} (found : expr.slot? params = some slot) :
    ∃ word span, expr = .name word span ∧ params.idxOf? word = some slot := by
  cases expr with
  | name word span => exact ⟨word, span, rfl, found⟩
  | _ => cases found

theorem constant?_eq_some {expr : Expr} {constraint : Constraint}
    (found : expr.constant? = some constraint) :
    ∃ kind text span, expr = .literal kind text span ∧ kind.constraint? = some constraint := by
  cases expr with
  | literal kind text span => exact ⟨kind, text, span, rfl, found⟩
  | _ => cases found

/-- One operand of a comparison is a parameter, the other a literal. -/
theorem comparison?_eq_some {left right : Expr} {slot : Nat} {constraint : Constraint}
    (found : left.comparison? params right = some (slot, constraint)) :
    (left.slot? params = some slot ∧ right.constant? = some constraint) ∨
      (right.slot? params = some slot ∧ left.constant? = some constraint) := by
  unfold comparison? at found
  split at found
  next named constant =>
    cases found
    exact Or.inl ⟨named, constant⟩
  next =>
    split at found
    next named constant =>
      cases found
      exact Or.inr ⟨named, constant⟩
    next => cases found

/-- All that expressions ask of a state, with what they ask it for. -/
inductive Asks (params : List String) : Expr → Atom → Prop where
  | equal {left right : Expr} {span : Span} {slot : Nat} {constraint : Constraint}
    (found : left.comparison? params right = some (slot, constraint)) :
    Asks params (.chain .equal [left, right] span) (.comparison slot constraint .isTrue)
  | notEqual {left right : Expr} {span : Span} {slot : Nat} {constraint : Constraint}
    (found : left.comparison? params right = some (slot, constraint)) :
    Asks params (.chain .notEqual [left, right] span) (.comparison slot constraint .isFalse)
  | typeTest {operand : Expr} {type : String} {span : Span} {slot : Nat}
    (found : operand.slot? params = some slot) :
    Asks params (.instanceOf operand type span) (.typeTest slot)
  | constant {kind : Literal} {text : String} {span : Span} {constraint : Constraint}
    (found : kind.constraint? = some constraint) :
    Asks params (.literal kind text span) (.constant constraint)
  | use {word : String} {span : Span} {slot : Nat} (named : params.idxOf? word = some slot) :
    Asks params (.name word span) (.use slot)
  | unknown {expr : Expr} : Asks params expr .unknown

theorem atom_asks (params : List String) (expr : Expr) :
    expr.Asks params (expr.atom params) := by
  unfold atom
  split
  next =>
    split
    next found => exact .equal found
    next => exact .unknown
  next =>
    split
    next found => exact .notEqual found
    next => exact .unknown
  next =>
    split
    next found => exact .typeTest found
    next => exact .unknown
  next =>
    split
    next found => exact .constant found
    next => exact .unknown
  next =>
    split
    next named => exact .use named
    next => exact .unknown
  next => exact .unknown

/-- A comparison is asked of a state only where a parameter is compared with a literal. -/
theorem comparison?_of_atom {expr : Expr} {slot : Nat} {constraint whenEqual : Constraint}
    (asked : expr.atom params = .comparison slot constraint whenEqual) :
    ∃ left right : Expr, left.comparison? params right = some (slot, constraint) := by
  have asks := expr.atom_asks params
  rw [asked] at asks
  cases asks with
  | equal found | notEqual found => exact ⟨_, _, found⟩

theorem eval_chain {op : BinaryOp} {stop : Constraint} (stops : op.stop? = some stop)
    (operands : List Expr) (span : Span) (states : List Arguments) :
    (chain op operands span).eval params limit states =
      if Arguments.heeded limit states then evalChain params limit stop operands states
      else [] := by
  simp only [eval, stops]

theorem eval_atomic {expr : Expr} (atomic : expr.isAtomic = true) (states : List Arguments) :
    expr.eval params limit states =
      if Arguments.heeded limit states then
        states.flatMap fun state => (expr.atom params).yield state
      else [] := by
  cases expr with
  | chain op operands span =>
    simp only [isAtomic, Option.isNone_iff_eq_none] at atomic
    simp only [eval, atomic]
  | conditional | paren => simp [isAtomic] at atomic
  | unary op operand span =>
    cases op with
    | not => simp [isAtomic] at atomic
    | _ => simp only [eval]
  | _ => simp only [eval]

end Expr

namespace Stmt

mutual

/-- Whether a statement always ends in `return` or `throw`. -/
def alwaysReturns : Stmt → Bool
  | .returns _ _ | .throws _ _ => true
  | .block statements _ => anyReturns statements
  | .ifElse _ whenTrue (some whenFalse) _ => whenTrue.alwaysReturns && whenFalse.alwaysReturns
  | _ => false

def anyReturns : List Stmt → Bool
  | [] => false
  | stmt :: stmts => stmt.alwaysReturns || anyReturns stmts

end

variable (params : List String) (limit : Option Nat)

/-- The contracts of one statement and, if the next statement is reached with
states that are known, those states. -/
def eval : Stmt → List Arguments → Interpreter.Step
  | .block [only] _, states => ⟨(only.eval states).contracts, none⟩
  | .ifElse condition whenTrue (some whenFalse) _, states =>
    let results := condition.eval params limit states
    ⟨(whenTrue.eval (Contract.argumentsWith .isTrue results)).contracts ++
      (whenFalse.eval (Contract.argumentsWith .isFalse results)).contracts, none⟩
  | .ifElse condition whenTrue none _, states =>
    let results := condition.eval params limit states
    ⟨(whenTrue.eval (Contract.argumentsWith .isTrue results)).contracts,
      if whenTrue.alwaysReturns then some (Contract.argumentsWith .isFalse results) else none⟩
  | .throws _ _, states => ⟨Contract.each states .fail, none⟩
  | .returns (some value) _, states => ⟨value.eval params limit states, none⟩
  | .assert condition _ _, states =>
    let results := condition.eval params limit states
    ⟨Contract.each (Contract.argumentsWith .isFalse results) .fail, none⟩
  | _, _ => ⟨[], none⟩

/-- The contracts of statements in order, as far as their states are known. -/
def evalAll : List Stmt → List Arguments → List Contract
  | [], _ => []
  | stmt :: stmts, states =>
    let step := stmt.eval params limit states
    match step.next with
    | none => step.contracts
    | some live => step.contracts ++ evalAll stmts live

/-- An `if` without `else`, past which evaluation may go on. -/
def isGuard : Stmt → Bool
  | .ifElse _ _ none _ => true
  | _ => false

/-- Induction along evaluation of statements: it ends with the first that is no guard. -/
@[elab_as_elim]
theorem byGuards {motive : List Stmt → Prop} (nil : motive [])
    (guard : ∀ condition whenTrue span stmts, motive stmts →
      motive (.ifElse condition whenTrue none span :: stmts))
    (last : ∀ stmt stmts, isGuard stmt = false → motive (stmt :: stmts)) (stmts : List Stmt) :
    motive stmts := by
  induction stmts with
  | nil => exact nil
  | cons stmt stmts ih =>
    -- Whatever follows a statement that is no guard is not evaluated.
    cases kind : stmt.isGuard with
    | false => exact last stmt stmts kind
    | true =>
      unfold isGuard at kind
      split at kind
      next condition whenTrue span => exact guard condition whenTrue span stmts ih
      next => cases kind

variable {params limit}

/-- States are handed on only past a guard, and then those that fail its condition. -/
theorem next_eq_some (stmt : Stmt) (states live : List Arguments)
    (next : (stmt.eval params limit states).next = some live) :
    ∃ condition whenTrue span, stmt = .ifElse condition whenTrue none span ∧
      live = Contract.argumentsWith .isFalse (condition.eval params limit states) := by
  unfold eval at next
  split at next
  -- The third case of evaluation is the guard.
  case h_3 condition whenTrue span =>
    simp only [Option.ite_none_right_eq_some, Option.some.injEq] at next
    exact ⟨condition, whenTrue, span, rfl, next.2.symm⟩
  all_goals cases next

theorem evalAll_guard (condition : Expr) (whenTrue : Stmt) (span : Span) (stmts : List Stmt)
    (states : List Arguments) :
    evalAll params limit (.ifElse condition whenTrue none span :: stmts) states =
      (whenTrue.eval params limit
        (Contract.argumentsWith .isTrue (condition.eval params limit states))).contracts ++
      if whenTrue.alwaysReturns then
        evalAll params limit stmts
          (Contract.argumentsWith .isFalse (condition.eval params limit states))
      else [] := by
  simp only [evalAll, eval]
  cases whenTrue.alwaysReturns <;> simp

theorem evalAll_last (stmt : Stmt) (stmts : List Stmt) (last : stmt.isGuard = false)
    (states : List Arguments) :
    evalAll params limit (stmt :: stmts) states = (stmt.eval params limit states).contracts := by
  cases next : (stmt.eval params limit states).next with
  | none => simp only [evalAll, next]
  | some live =>
    -- Only a guard hands states on.
    obtain ⟨_, _, _, rfl, _⟩ := next_eq_some stmt states live next
    cases last

end Stmt

end Tree
end MethodContracts
