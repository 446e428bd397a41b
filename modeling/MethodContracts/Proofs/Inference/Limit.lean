import Mathlib.Algebra.Order.BigOperators.Group.List
import Mathlib.Algebra.Order.Group.Nat
import Mathlib.Data.List.Flatten
import MethodContracts.Proofs.Body.Validity
import MethodContracts.Proofs.Inference.Agreement

/-!
# What the limit on states costs

An expression under too many states yields nothing, so whatever is evaluated after it
sees fewer states. Evaluation is monotone in its states and keeps their order: a limit
only leaves contracts out, and leaves none out that is never reached.
-/
namespace MethodContracts

private theorem Contract.argumentsWith_sublist {fewer more : List Contract}
    (kept : fewer.Sublist more) (result : Constraint) :
    (argumentsWith result fewer).Sublist (argumentsWith result more) :=
  (kept.filter _).map _

private theorem Arguments.heeded_none_of_sublist {limit : Option Nat} {fewer more : List Arguments}
    (kept : fewer.Sublist more) (heeded : Arguments.heeded limit fewer = true) :
    Arguments.heeded none more = true := by
  simp only [Arguments.heeded, Option.all_none, Bool.and_true, Bool.and_eq_true,
    Bool.not_eq_true', List.isEmpty_eq_false_iff] at heeded ⊢
  intro empty
  rw [empty] at kept
  exact heeded.1 (List.sublist_nil.mp kept)

/-- States that are heeded under a limit are heeded without one, however many more there are. -/
private theorem Arguments.heeded_sublist {limit : Option Nat} {fewer more : List Arguments}
    (kept : fewer.Sublist more) {limited all : List Contract} (inner : limited.Sublist all) :
    (if Arguments.heeded limit fewer then limited else []).Sublist
      (if Arguments.heeded none more then all else []) := by
  split
  next heeded =>
    rw [Arguments.heeded_none_of_sublist kept heeded]
    exact inner
  next => exact List.nil_sublist _

private theorem Arguments.heeded_some_of_le {most : Nat} {states : List Arguments}
    (few : states.length ≤ most) :
    Arguments.heeded (some most) states = Arguments.heeded none states := by
  simp only [Arguments.heeded, Option.all_some, few, decide_true, Option.all_none]

/-- A limit that the states do not exceed changes only what is evaluated under them. -/
private theorem Arguments.heeded_congr {most : Nat} {states : List Arguments}
    (few : states.length ≤ most) {limited all : List Contract}
    (inner : Arguments.heeded none states = true → limited = all) :
    (if Arguments.heeded (some most) states then limited else []) =
      if Arguments.heeded none states then all else [] := by
  rw [Arguments.heeded_some_of_le few]
  split
  next heeded => exact inner heeded
  next => rfl

namespace Tree

namespace Expr

variable {params : List String} {limit : Option Nat} {most : Nat}

/-! ## Fewer states -/

private theorem evalChain_sublist {stop : Constraint} (operands : List Expr)
    (each : ∀ operand ∈ operands, ∀ fewer more : List Arguments, fewer.Sublist more →
      (operand.eval params limit fewer).Sublist (operand.eval params none more))
    (fewer more : List Arguments) (kept : fewer.Sublist more) :
    (evalChain params limit stop operands fewer).Sublist
      (evalChain params none stop operands more) := by
  induction operands generalizing fewer more with
  | nil => exact kept.map _
  | cons operand operands ih =>
    -- Fewer contracts that do not stop hand fewer states to the operands behind.
    have here := each operand List.mem_cons_self fewer more kept
    have handed := Contract.argumentsWith_sublist here stop.negate
    have later := ih (fun other member => each other (List.mem_cons_of_mem _ member)) _ _ handed
    exact (here.filter _).append later

/-- With a limit and fewer states an expression yields some of the contracts, in order. -/
theorem eval_sublist (expr : Expr) (fewer more : List Arguments) (kept : fewer.Sublist more) :
    (expr.eval params limit fewer).Sublist (expr.eval params none more) := by
  induction expr using byShape generalizing fewer more with
  | chain op stop operands span stops ih =>
    rw [eval_chain stops, eval_chain stops]
    exact Arguments.heeded_sublist kept (evalChain_sublist operands ih fewer more kept)
  | conditional condition whenTrue whenFalse span conditionIH trueIH falseIH =>
    simp only [eval]
    -- Fewer contracts of the condition hand fewer states to either branch.
    have decided := conditionIH fewer more kept
    have first := trueIH _ _ (Contract.argumentsWith_sublist decided .isTrue)
    have second := falseIH _ _ (Contract.argumentsWith_sublist decided .isFalse)
    exact Arguments.heeded_sublist kept (first.append second)
  | paren inner span ih =>
    simp only [eval]
    exact Arguments.heeded_sublist kept (ih fewer more kept)
  | not operand span ih =>
    simp only [eval]
    exact Arguments.heeded_sublist kept (((ih fewer more kept).filter _).map _)
  | atomic expr isAtomic =>
    rw [eval_atomic isAtomic, eval_atomic isAtomic]
    exact Arguments.heeded_sublist kept (kept.flatMap _)

/-! ## The states that expressions are evaluated under -/

variable (params)

mutual

/-- For every expression that is evaluated, the number of its states if there is no limit. -/
def calls (expr : Expr) (states : List Arguments) : List Nat :=
  states.length ::
    if Arguments.heeded none states then
      match expr with
      | .chain op operands _ =>
        match op.stop? with
        | some stop => callsChain stop operands states
        | none => []
      | .conditional condition whenTrue whenFalse _ =>
        let contracts := condition.eval params none states
        condition.calls states ++ whenTrue.calls (Contract.argumentsWith .isTrue contracts) ++
          whenFalse.calls (Contract.argumentsWith .isFalse contracts)
      | .paren inner _ => inner.calls states
      | .unary .not operand _ => operand.calls states
      | _ => []
    else []

/-- The same for operands from left to right. -/
def callsChain (stop : Constraint) : List Expr → List Arguments → List Nat
  | [], _ => []
  | operand :: operands, live =>
    operand.calls live ++
      callsChain stop operands
        (Contract.argumentsWith stop.negate (operand.eval params none live))

end

variable {params}

private theorem length_mem_calls (expr : Expr) (states : List Arguments) :
    states.length ∈ expr.calls params states := by
  unfold calls
  exact List.mem_cons_self

private theorem calls_chain {op : BinaryOp} {stop : Constraint} (stops : op.stop? = some stop)
    (operands : List Expr) (span : Span) (states : List Arguments)
    (heeded : Arguments.heeded none states = true) :
    (chain op operands span).calls params states =
      states.length :: callsChain params stop operands states := by
  simp only [calls, stops, heeded, ite_true]

private theorem evalChain_eq_of_calls {stop : Constraint} (operands : List Expr)
    (each : ∀ operand ∈ operands, ∀ states : List Arguments,
      (∀ count ∈ operand.calls params states, count ≤ most) →
        operand.eval params (some most) states = operand.eval params none states)
    (live : List Arguments) (few : ∀ count ∈ callsChain params stop operands live, count ≤ most) :
    evalChain params (some most) stop operands live = evalChain params none stop operands live := by
  induction operands generalizing live with
  | nil => rfl
  | cons operand operands ih =>
    simp only [callsChain, List.forall_mem_append] at few
    have here := each operand List.mem_cons_self live few.1
    have later := ih (fun other member => each other (List.mem_cons_of_mem _ member)) _ few.2
    simp only [evalChain, here, later]

/-- A limit that no number of states exceeds changes nothing. -/
theorem eval_eq_of_calls (expr : Expr) (states : List Arguments)
    (few : ∀ count ∈ expr.calls params states, count ≤ most) :
    expr.eval params (some most) states = expr.eval params none states := by
  -- The states of the whole are few; those of its parts count only if these are heeded.
  induction expr using byShape generalizing states with
  | chain op stop operands span stops ih =>
    rw [eval_chain stops, eval_chain stops]
    apply Arguments.heeded_congr (few _ (length_mem_calls _ states))
    intro heeded
    rw [calls_chain stops operands span states heeded, List.forall_mem_cons] at few
    exact evalChain_eq_of_calls operands ih states few.2
  | conditional condition whenTrue whenFalse span conditionIH trueIH falseIH =>
    simp only [eval]
    apply Arguments.heeded_congr (few _ (length_mem_calls _ states))
    intro heeded
    simp only [calls, heeded, ite_true, List.forall_mem_cons, List.forall_mem_append] at few
    obtain ⟨-, ⟨fewCondition, fewTrue⟩, fewFalse⟩ := few
    rw [conditionIH states fewCondition, trueIH _ fewTrue, falseIH _ fewFalse]
  | paren inner span ih =>
    apply Arguments.heeded_congr (few _ (length_mem_calls _ states))
    intro heeded
    simp only [calls, heeded, ite_true, List.forall_mem_cons] at few
    exact ih states few.2
  | not operand span ih =>
    apply Arguments.heeded_congr (few _ (length_mem_calls _ states))
    intro heeded
    simp only [calls, heeded, ite_true, List.forall_mem_cons] at few
    rw [ih states few.2]
  | atomic expr isAtomic =>
    rw [eval_atomic isAtomic, eval_atomic isAtomic]
    exact Arguments.heeded_congr (few _ (length_mem_calls _ states)) fun _ => rfl

end Expr

/-! ## Statements -/

namespace Stmt

variable {params : List String} {limit : Option Nat} {most : Nat}

/-- A statement under a limit and fewer states yields some of the contracts, in order. -/
theorem eval_sublist (stmt : Stmt) (fewer more : List Arguments) (kept : fewer.Sublist more) :
    (stmt.eval params limit fewer).contracts.Sublist
      (stmt.eval params none more).contracts := by
  induction stmt using byChildren generalizing fewer more with
  | step stmt ih =>
    cases stmt with
    | block statements span =>
      match statements with
      | [] | _ :: _ :: _ => exact List.nil_sublist _
      | [only] => exact ih only List.mem_cons_self fewer more kept
    | ifElse condition whenTrue whenFalse span =>
      have decided : (condition.eval params limit fewer).Sublist
          (condition.eval params none more) := condition.eval_sublist fewer more kept
      have first := ih whenTrue List.mem_cons_self _ _
        (Contract.argumentsWith_sublist decided .isTrue)
      cases whenFalse with
      | none => exact first
      | some whenFalse =>
        have second := ih whenFalse (by simp [children]) _ _
          (Contract.argumentsWith_sublist decided .isFalse)
        exact first.append second
    | throws value span => exact kept.map _
    | returns value span =>
      cases value with
      | none => exact List.nil_sublist _
      | some value => exact value.eval_sublist fewer more kept
    | assert condition message span =>
      have decided : (condition.eval params limit fewer).Sublist
          (condition.eval params none more) := condition.eval_sublist fewer more kept
      exact (Contract.argumentsWith_sublist decided .isFalse).map _
    | _ => exact List.nil_sublist _

theorem evalAll_sublist (stmts : List Stmt) (fewer more : List Arguments)
    (kept : fewer.Sublist more) :
    (evalAll params limit stmts fewer).Sublist (evalAll params none stmts more) := by
  induction stmts using byGuards generalizing fewer more with
  | nil => exact List.nil_sublist _
  | guard condition whenTrue span stmts ih =>
    have decided : (condition.eval params limit fewer).Sublist
        (condition.eval params none more) := condition.eval_sublist fewer more kept
    rw [evalAll_guard, evalAll_guard]
    apply (whenTrue.eval_sublist _ _ (Contract.argumentsWith_sublist decided .isTrue)).append
    -- Whether evaluation goes on does not depend on the states.
    split
    next => exact ih _ _ (Contract.argumentsWith_sublist decided .isFalse)
    next => exact List.nil_sublist _
  | last stmt stmts last =>
    rw [evalAll_last stmt stmts last, evalAll_last stmt stmts last]
    exact stmt.eval_sublist fewer more kept

variable (params)

/-- For every expression that is evaluated, the number of its states if there is no limit. -/
def calls : Stmt → List Arguments → List Nat
  | .block [only] _, states => only.calls states
  | .ifElse condition whenTrue (some whenFalse) _, states =>
    let results := condition.eval params none states
    condition.calls params states ++ whenTrue.calls (Contract.argumentsWith .isTrue results) ++
      whenFalse.calls (Contract.argumentsWith .isFalse results)
  | .ifElse condition whenTrue none _, states =>
    condition.calls params states ++
      whenTrue.calls (Contract.argumentsWith .isTrue (condition.eval params none states))
  | .returns (some value) _, states => value.calls params states
  | .assert condition _ _, states => condition.calls params states
  | _, _ => []

/-- The same for statements in order, as far as their states are known. -/
def allCalls : List Stmt → List Arguments → List Nat
  | [], _ => []
  | stmt :: stmts, states =>
    stmt.calls params states ++
      match (stmt.eval params none states).next with
      | none => []
      | some live => allCalls stmts live

variable {params}

theorem eval_eq_of_calls (stmt : Stmt) (states : List Arguments)
    (few : ∀ count ∈ stmt.calls params states, count ≤ most) :
    stmt.eval params (some most) states = stmt.eval params none states := by
  induction stmt using byChildren generalizing states with
  | step stmt ih =>
    cases stmt with
    | block statements span =>
      match statements with
      | [] | _ :: _ :: _ => rfl
      | [only] => simp only [eval, ih only List.mem_cons_self states few]
    | ifElse condition whenTrue whenFalse span =>
      cases whenFalse with
      | none =>
        simp only [calls, List.forall_mem_append] at few
        have decided := condition.eval_eq_of_calls states few.1
        simp only [eval, decided, ih whenTrue List.mem_cons_self _ few.2]
      | some whenFalse =>
        simp only [calls, List.forall_mem_append] at few
        have decided := condition.eval_eq_of_calls states few.1.1
        have second := ih whenFalse (by simp [children]) _ few.2
        simp only [eval, decided, ih whenTrue List.mem_cons_self _ few.1.2, second]
    | returns value span =>
      cases value with
      | none => rfl
      | some value => simp only [eval, value.eval_eq_of_calls states few]
    | assert condition message span =>
      simp only [eval, condition.eval_eq_of_calls states few]
    | _ => rfl

theorem evalAll_eq_of_calls (stmts : List Stmt) (states : List Arguments)
    (few : ∀ count ∈ allCalls params stmts states, count ≤ most) :
    evalAll params (some most) stmts states = evalAll params none stmts states := by
  induction stmts generalizing states with
  | nil => rfl
  | cons stmt stmts ih =>
    simp only [allCalls, List.forall_mem_append] at few
    simp only [evalAll, stmt.eval_eq_of_calls states few.1]
    cases next : (stmt.eval params none states).next with
    | none => rfl
    | some live =>
      rw [next] at few
      simp only [ih live few.2]

end Stmt

end Tree

/-! ## The interpreter -/

namespace Interpreter

/-- What the limit does to a run that calls for these numbers of states and has these
contracts without a limit. -/
structure Limits (i : Interpreter) (run : Interpreter → Except Fault (List Contract))
    (fits : Prop) (calls : List Nat) (all : List Contract) : Prop where
  returns : fits → ∃ contracts, run i = .ok contracts
  removes : ∀ contracts, run i = .ok contracts → contracts.Sublist all
  whole : (∀ count ∈ calls, count ≤ i.maxStates) →
    ∀ contracts, run i = .ok contracts → contracts = all
  /-- Limits from some number on are no limits. -/
  unlimited : ∃ enough, ∀ most, enough ≤ most → Agrees fits (run { i with maxStates := most }) all

/-- A run is limited so if under each limit it agrees with an evaluation that is. -/
theorem Limits.of_agrees {i : Interpreter} {run : Interpreter → Except Fault (List Contract)}
    {fits : Prop} {calls : List Nat} (value : Option Nat → List Contract)
    (agrees : ∀ most, Agrees fits (run { i with maxStates := most }) (value (some most)))
    (sublist : (value (some i.maxStates)).Sublist (value none))
    (same : ∀ most, (∀ count ∈ calls, count ≤ most) → value (some most) = value none) :
    i.Limits run fits calls (value none) where
  returns fit := ⟨_, (agrees i.maxStates).eq_ok fit⟩
  removes contracts returned := by
    rw [(agrees i.maxStates).eq_value returned]
    exact sublist
  whole few contracts returned := by
    rw [(agrees i.maxStates).eq_value returned]
    exact same i.maxStates few
  unlimited := by
    -- The sum is at least each of the numbers.
    refine ⟨calls.sum, ?_⟩
    intro most enough
    have few : ∀ count ∈ calls, count ≤ most := fun count member =>
      Nat.le_trans (List.le_sum_of_mem member) enough
    exact same most few ▸ agrees most

/-- The limit only removes: whatever is evaluated of a valid body, under a limit it
yields some of the contracts that it yields without one, in the same order, and all of
them if no expression is evaluated under more states than the limit. -/
theorem eval_limits (i : Interpreter) (accepted : i.body.validate = .ok ())
    (states : List Arguments) :
    (∀ id : ExprId, id.index < i.body.exprs.size →
      i.Limits (fun limited => limited.evalExpr states id) (Fit i.params states)
        ((i.body.exprTree id).calls i.params states)
        ((i.body.exprTree id).eval i.params none states)) ∧
    ∀ ids : List StmtId, (∀ id ∈ ids, id.index < i.body.stmts.size) →
      i.Limits (fun limited => limited.evalStmts states ids) (Fit i.params states)
        (Tree.Stmt.allCalls i.params (ids.map i.body.stmtTree) states)
        (Tree.Stmt.evalAll i.params none (ids.map i.body.stmtTree) states) := by
  have valid := i.body.valid_of_validate accepted
  -- Both halves are the tree, with a limit and without one.
  constructor
  · intro id inside
    apply Limits.of_agrees fun limit => (i.body.exprTree id).eval i.params limit states
    · intro most
      exact Interpreter.evalExpr_agrees { i with maxStates := most } valid id inside states
    · exact (i.body.exprTree id).eval_sublist states states (List.Sublist.refl _)
    · intro most few
      exact (i.body.exprTree id).eval_eq_of_calls states few
  · intro ids inside
    apply Limits.of_agrees fun limit =>
      Tree.Stmt.evalAll i.params limit (ids.map i.body.stmtTree) states
    · intro most
      exact Interpreter.evalStmts_agrees { i with maxStates := most } valid ids inside states
    · exact Tree.Stmt.evalAll_sublist _ states states (List.Sublist.refl _)
    · intro most few
      exact Tree.Stmt.evalAll_eq_of_calls _ states few

/-- The expression `x == null || ((a == null ? b == null : b == null) ? c : c)`, in which equal
parts are shared, under a limit of one state. -/
def tight : Interpreter where
  body := {
    root := ⟨0⟩
    stmts := #[.returns (some ⟨10⟩) ⟨0, 0⟩]
    exprs := #[.literal .null "null" ⟨0, 0⟩, .name "x" ⟨0, 0⟩, .chain .equal [⟨1⟩, ⟨0⟩] ⟨0, 0⟩,
      .name "a" ⟨0, 0⟩, .chain .equal [⟨3⟩, ⟨0⟩] ⟨0, 0⟩, .name "b" ⟨0, 0⟩,
      .chain .equal [⟨5⟩, ⟨0⟩] ⟨0, 0⟩, .conditional ⟨4⟩ ⟨6⟩ ⟨6⟩ ⟨0, 0⟩, .name "c" ⟨0, 0⟩,
      .conditional ⟨7⟩ ⟨8⟩ ⟨8⟩ ⟨0, 0⟩, .chain .or [⟨2⟩, ⟨9⟩] ⟨0, 0⟩] }
  params := ["x", "a", "b", "c"]
  maxStates := 1

theorem eval_limits_tight :
    tight.body.validate = .ok () ∧
      (∀ id : ExprId, id.index < tight.body.exprs.size →
        tight.Limits (fun limited => limited.evalExpr [.unknown 4] id)
          (Fit tight.params [.unknown 4])
          ((tight.body.exprTree id).calls tight.params [.unknown 4])
          ((tight.body.exprTree id).eval tight.params none [.unknown 4])) ∧
      ∀ ids : List StmtId, (∀ id ∈ ids, id.index < tight.body.stmts.size) →
        tight.Limits (fun limited => limited.evalStmts [.unknown 4] ids)
          (Fit tight.params [.unknown 4])
          (Tree.Stmt.allCalls tight.params (ids.map tight.body.stmtTree) [.unknown 4])
          (Tree.Stmt.evalAll tight.params none (ids.map tight.body.stmtTree) [.unknown 4]) :=
  ⟨rfl, eval_limits tight rfl [.unknown 4]⟩

end Interpreter
end MethodContracts
