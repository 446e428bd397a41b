import MethodContracts.Proofs.Inference.Layout

/-!
# Conditionals, branches and guards

It makes no difference for inference whether a choice is written as an expression that is
returned, as a statement with two branches that return, or as a guard before the rest. The
first is looked at under its states only if there are neither none nor too many; in the
others the same holds of the condition, and without its contracts the branches have none.
-/
namespace MethodContracts

namespace Tree

/-- The statement returns the expression: as it is, or with its conditionals as branches,
without its parentheses, and in blocks of one statement. -/
inductive Expr.Returned : Expr → Stmt → Prop
  | value {expr expr' : Expr} (span : Span) (same : expr.withoutSpans = expr'.withoutSpans) :
    Returned expr (.returns (some expr') span)
  | conditional {condition condition' whenTrue whenFalse : Expr} {first second : Stmt}
    (span span' : Span) (same : condition.withoutSpans = condition'.withoutSpans)
    (whenTrueReturned : Returned whenTrue first) (whenFalseReturned : Returned whenFalse second) :
    Returned (.conditional condition whenTrue whenFalse span)
      (.ifElse condition' first (some second) span')
  | paren {inner : Expr} {stmt : Stmt} (span : Span) (returned : Returned inner stmt) :
    Returned (.paren inner span) stmt
  | block {expr : Expr} {stmt : Stmt} (span : Span) (returned : Returned expr stmt) :
    Returned expr (.block [stmt] span)

/-- The expression as a statement that returns it, with conditionals as branches as far
as they reach. -/
def Expr.asStmt : Expr → Stmt
  | .conditional condition whenTrue whenFalse span =>
    .ifElse condition whenTrue.asStmt (some whenFalse.asStmt) span
  | .paren inner _ => inner.asStmt
  | expr => .returns (some expr) (.point 0)

/-- Every expression is returned by the statement that it is as a choice of statements. -/
theorem Expr.returned_asStmt (expr : Expr) : expr.Returned expr.asStmt := by
  induction expr using byShape with
  | conditional condition whenTrue whenFalse span _ first second =>
    exact .conditional span span rfl first second
  | paren inner span returned => exact .paren span returned
  | chain op stop operands span stops each => exact .value _ rfl
  | not operand span _ => exact .value _ rfl
  | atomic expr atomic =>
    cases expr with
    | conditional | paren => cases atomic
    | _ => exact .value _ rfl

variable {params : List String} {maxStates : Nat}

/-- A statement that returns an expression yields what the expression yields, and nothing
is known after it. -/
theorem Expr.Returned.outcome_eq {expr : Expr} {stmt : Stmt} (returned : expr.Returned stmt)
    (states : List Arguments) :
    stmt.outcome params maxStates states =
      (fun contracts => ⟨contracts, none⟩) <$> expr.outcome params maxStates states := by
  induction returned generalizing states with
  | @value expr expr' span same =>
    -- What is returned may have other spans, which evaluation does not look at.
    have alike : expr'.outcome params maxStates states = expr.outcome params maxStates states := by
      rw [← expr'.outcome_withoutSpans, ← same, expr.outcome_withoutSpans]
    rw [Stmt.outcome, alike, map_eq_pure_bind]
  | @conditional condition condition' whenTrue whenFalse first second span span' same _ _ one two =>
    have alike : condition'.outcome params maxStates states =
        condition.outcome params maxStates states := by
      rw [← condition'.outcome_withoutSpans, ← same, condition.outcome_withoutSpans]
    rw [Stmt.outcome, alike, Expr.outcome_conditional]
    cases heeded : Arguments.heeded (some maxStates) states with
    | false =>
      -- The condition hands no states on, and without states a branch has no contracts.
      have firstNone := one []
      have secondNone := two []
      rw [Expr.outcome_unheeded _ [] rfl] at firstNone secondNone
      rw [Expr.outcome_unheeded _ states heeded]
      change (do
        let first ← first.outcome params maxStates []
        let second ← second.outcome params maxStates []
        return Interpreter.Step.mk (first.contracts ++ second.contracts) none) = _
      rw [firstNone, secondNone]
      rfl
    | true =>
      simp only [one, two, ite_true, map_bind, map_pure, bind_map_left]
  | paren span _ same => rw [same, Expr.outcome_paren]
  | block span _ same =>
    rw [Stmt.outcome, same, bind_map_left, map_eq_pure_bind]

namespace Stmt

theorem outcomeAll_single (stmt : Stmt) (states : List Arguments) :
    outcomeAll params maxStates [stmt] states =
      (·.contracts) <$> stmt.outcome params maxStates states := by
  simp only [outcomeAll, map_eq_pure_bind]
  apply bind_congr
  intro step
  -- After a single statement there is nothing to do with the states it hands on.
  cases step.next with
  | none => rfl
  | some live => simp only [pure_bind, List.append_nil]

/-- Past a guard whose branch always returns the rest sees the states that fail its
condition. -/
private theorem outcomeAll_guard (condition : Expr) (whenTrue : Stmt) (span : Span)
    (rest : List Stmt) (returns : whenTrue.alwaysReturns = true) (states : List Arguments) :
    outcomeAll params maxStates (.ifElse condition whenTrue none span :: rest) states = (do
      let results ← condition.outcome params maxStates states
      let first ←
        outcomeAll params maxStates [whenTrue] (Contract.argumentsWith .isTrue results)
      let others ← outcomeAll params maxStates rest (Contract.argumentsWith .isFalse results)
      return first ++ others) := by
  simp only [outcomeAll_single, bind_map_left]
  simp only [outcomeAll, outcome, returns, ite_true, bind_assoc, pure_bind]

/-- One statement after such a guard might as well be its other branch. -/
theorem outcomeAll_guard_single (condition : Expr) (whenTrue last : Stmt) (span : Span)
    (returns : whenTrue.alwaysReturns = true) (states : List Arguments) :
    outcomeAll params maxStates [.ifElse condition whenTrue none span, last] states =
      outcomeAll params maxStates [.ifElse condition whenTrue (some last) span] states := by
  rw [outcomeAll_guard condition whenTrue span [last] returns, outcomeAll_single]
  simp only [outcomeAll_single, outcome, bind_map_left, map_bind, map_pure]

end Stmt

end Tree

namespace Interpreter

/-- A statement that returns an expression has the outcome of the expression, wherever the
two are. -/
theorem evalStmts_returned (left right : Interpreter) (sameParams : left.params = right.params)
    (sameLimit : left.maxStates = right.maxStates) (valid : left.body.Valid)
    (valid' : right.body.Valid) (id : StmtId) (inside : id.index < left.body.stmts.size)
    (id' : ExprId) (inside' : id'.index < right.body.exprs.size)
    (returned : (right.body.exprTree id').Returned (left.body.stmtTree id))
    (states : List Arguments) : left.evalStmts states [id] = right.evalExpr states id' := by
  rw [left.evalStmts_eq valid [id] (by simpa using inside), right.evalExpr_eq valid' id' inside',
    List.map_singleton, Tree.Stmt.outcomeAll_single, returned.outcome_eq, Functor.map_map,
    sameParams, sameLimit]
  exact id_map' _

section Guard

variable (i : Interpreter) (valid : i.body.Valid) {guard : StmtId} {condition : ExprId}
  {whenTrue : StmtId} {span : Span}
  (found : i.body.stmt? guard = some (.ifElse condition whenTrue none span))
  (returns : i.alwaysReturns whenTrue = .ok true)
include valid found

/-- The parts of a guard are in the arenas of its body. -/
theorem guard_lt : condition.index < i.body.exprs.size ∧ whenTrue.index < i.body.stmts.size ∧
    guard.index < i.body.stmts.size := by
  have placed := i.body.lt_of_stmt? guard _ found
  have before := valid.stmt_lt guard.index _ found whenTrue List.mem_cons_self
  exact ⟨valid.stmt_expr_lt guard.index _ found condition List.mem_cons_self, by omega, placed⟩

theorem stmtTree_guard : i.body.stmtTree guard =
    .ifElse (i.body.exprTree condition) (i.body.stmtTree whenTrue) none span :=
  i.body.stmtTree_eq valid guard _ found

include returns

theorem alwaysReturns_stmtTree : (i.body.stmtTree whenTrue).alwaysReturns = true := by
  have same := i.alwaysReturns_eq valid whenTrue (i.guard_lt valid found).2.1
  rw [returns] at same
  exact (Except.ok.inj same).symm

/-- A guard whose branch always returns divides its states between the branch and the rest. -/
theorem evalStmts_guard (rest : List StmtId) (inside : ∀ id ∈ rest, id.index < i.body.stmts.size)
    (states : List Arguments) :
    i.evalStmts states (guard :: rest) = (do
      let results ← i.evalExpr states condition
      let first ← i.evalStmts (Contract.argumentsWith .isTrue results) [whenTrue]
      let others ← i.evalStmts (Contract.argumentsWith .isFalse results) rest
      return first ++ others) := by
  obtain ⟨conditionInside, branchInside, guardInside⟩ := i.guard_lt valid found
  have always := i.alwaysReturns_stmtTree valid found returns
  rw [i.evalStmts_eq valid (guard :: rest) (List.forall_mem_cons.mpr ⟨guardInside, inside⟩),
    List.map_cons, i.stmtTree_guard valid found, Tree.Stmt.outcomeAll_guard _ _ _ _ always]
  simp only [i.evalExpr_eq valid condition conditionInside, i.evalStmts_eq valid rest inside,
    i.evalStmts_eq valid [whenTrue] (by simpa using branchInside), List.map_cons, List.map_nil]

end Guard

/-- A choice is the same as an expression that is returned and as statements with branches
that return it. A guard whose branch always returns gives the contracts of the branch where
its condition is true, then those of the rest where it is false, which for a rest of one
statement is the result of the `if` with both branches. -/
theorem evalStmts_choice (left right : Interpreter) (sameParams : left.params = right.params)
    (sameLimit : left.maxStates = right.maxStates) (accepted : left.body.validate = .ok ())
    (accepted' : right.body.validate = .ok ()) (states : List Arguments) :
    (∀ expr : Tree.Expr, expr.Returned expr.asStmt) ∧
    (∀ (id : StmtId) (id' : ExprId), id.index < left.body.stmts.size →
      id'.index < right.body.exprs.size →
      (right.body.exprTree id').Returned (left.body.stmtTree id) →
        left.evalStmts states [id] = right.evalExpr states id' ∧
        (Fit left.params states → ∃ contracts, left.evalStmts states [id] = .ok contracts)) ∧
    ∀ (guard : StmtId) (condition : ExprId) (whenTrue : StmtId) (span : Span),
      left.body.stmt? guard = some (.ifElse condition whenTrue none span) →
      left.alwaysReturns whenTrue = .ok true →
        (∀ rest : List StmtId, (∀ id ∈ rest, id.index < left.body.stmts.size) →
          left.evalStmts states (guard :: rest) = (do
            let results ← left.evalExpr states condition
            let first ← left.evalStmts (Contract.argumentsWith .isTrue results) [whenTrue]
            let others ← left.evalStmts (Contract.argumentsWith .isFalse results) rest
            return first ++ others) ∧
          (Fit left.params states →
            ∃ contracts, left.evalStmts states (guard :: rest) = .ok contracts)) ∧
        ∀ last choice : StmtId, last.index < left.body.stmts.size →
          choice.index < right.body.stmts.size →
          (right.body.stmtTree choice).withoutSpans =
            (Tree.Stmt.ifElse (left.body.exprTree condition) (left.body.stmtTree whenTrue)
              (some (left.body.stmtTree last)) span).withoutSpans →
            left.evalStmts states [guard, last] = right.evalStmts states [choice] := by
  have valid := left.body.valid_of_validate accepted
  have valid' := right.body.valid_of_validate accepted'
  have returning (ids : List StmtId) (inside : ∀ id ∈ ids, id.index < left.body.stmts.size)
      (fit : Fit left.params states) : ∃ contracts, left.evalStmts states ids = .ok contracts :=
    ⟨_, (left.evalStmts_agrees valid ids inside states).eq_ok fit⟩
  refine ⟨Tree.Expr.returned_asStmt, ?_, ?_⟩
  · intro id id' inside inside' returned
    exact ⟨left.evalStmts_returned right sameParams sameLimit valid valid' id inside id' inside'
      returned states, returning [id] (by simpa using inside)⟩
  · intro guard condition whenTrue span found returns
    have guardInside := (left.guard_lt valid found).2.2
    constructor
    · intro rest inside
      exact ⟨left.evalStmts_guard valid found returns rest inside states,
        returning (guard :: rest) (List.forall_mem_cons.mpr ⟨guardInside, inside⟩)⟩
    · intro last choice inside inside' same
      -- The guard and the last statement are taken to one `if`, and that to the one on the right.
      have always := left.alwaysReturns_stmtTree valid found returns
      rw [left.evalStmts_eq valid [guard, last] (by simpa using ⟨guardInside, inside⟩),
        right.evalStmts_eq valid' [choice] (by simpa using inside'), List.map_cons,
        List.map_singleton, List.map_singleton, left.stmtTree_guard valid found,
        Tree.Stmt.outcomeAll_guard_single _ _ _ _ always, Tree.Stmt.outcomeAll_single,
        Tree.Stmt.outcomeAll_single, ← Tree.Stmt.outcome_withoutSpans, ← same,
        Tree.Stmt.outcome_withoutSpans, sameParams, sameLimit]

end Interpreter

/-- The body `if (x == null) return y; return z;`, with the same choice as an `if` with both
branches, the first of them in a block, and as the expression `x == null ? (y) : z`. -/
def Body.threeChoices : Body where
  root := ⟨5⟩
  stmts := #[.returns (some ⟨3⟩) ⟨15, 24⟩, .returns (some ⟨5⟩) ⟨25, 34⟩, .block [⟨0⟩] ⟨15, 24⟩,
    .ifElse ⟨2⟩ ⟨2⟩ (some ⟨1⟩) ⟨0, 34⟩, .ifElse ⟨2⟩ ⟨0⟩ none ⟨0, 24⟩, .block [⟨4⟩, ⟨1⟩] ⟨0, 34⟩,
    .ifElse ⟨2⟩ ⟨0⟩ (some ⟨1⟩) ⟨0, 34⟩]
  exprs := #[.name "x" ⟨4, 5⟩, .literal .null "null" ⟨9, 13⟩, .chain .equal [⟨0⟩, ⟨1⟩] ⟨4, 13⟩,
    .name "y" ⟨22, 23⟩, .paren ⟨3⟩ ⟨22, 23⟩, .name "z" ⟨32, 33⟩,
    .conditional ⟨2⟩ ⟨4⟩ ⟨5⟩ ⟨4, 33⟩]

def Interpreter.threeChoices : Interpreter := ⟨.threeChoices, ["x", "y", "z"], 2⟩

theorem Interpreter.evalStmts_choice_threeChoices :
    Body.threeChoices.validate = .ok () ∧
      Fit ["x", "y", "z"] [[.any, .any, .isTrue]] ∧
      (Body.threeChoices.exprTree ⟨6⟩).Returned (Body.threeChoices.stmtTree ⟨3⟩) ∧
      Interpreter.threeChoices.evalStmts [[.any, .any, .isTrue]] [⟨3⟩] =
        Interpreter.threeChoices.evalExpr [[.any, .any, .isTrue]] ⟨6⟩ ∧
      (∃ contracts, Interpreter.threeChoices.evalStmts [[.any, .any, .isTrue]] [⟨3⟩] =
        .ok contracts) ∧
      Interpreter.threeChoices.alwaysReturns ⟨0⟩ = .ok true ∧
      Interpreter.threeChoices.evalStmts [[.any, .any, .isTrue]] [⟨4⟩, ⟨1⟩] =
        .ok [⟨[.null, .isTrue, .isTrue], .isTrue⟩, ⟨[.null, .isFalse, .isTrue], .isFalse⟩,
          ⟨[.notNull, .any, .isTrue], .isTrue⟩] ∧
      (∃ contracts, Interpreter.threeChoices.evalStmts [[.any, .any, .isTrue]] [⟨4⟩, ⟨1⟩] =
        .ok contracts) ∧
      Interpreter.threeChoices.evalStmts [[.any, .any, .isTrue]] [⟨4⟩, ⟨1⟩] =
        Interpreter.threeChoices.evalStmts [[.any, .any, .isTrue]] [⟨6⟩] := by
  have fit : Fit ["x", "y", "z"] [[.any, .any, .isTrue]] := by
    unfold Fit
    decide
  have returned : (Body.threeChoices.exprTree ⟨6⟩).Returned (Body.threeChoices.stmtTree ⟨3⟩) :=
    .conditional _ _ rfl (.paren _ (.block _ (.value _ rfl))) (.value _ rfl)
  obtain ⟨_, choices, guards⟩ := Interpreter.evalStmts_choice .threeChoices .threeChoices rfl rfl
    rfl rfl [[.any, .any, .isTrue]]
  obtain ⟨same, evaluated⟩ := choices ⟨3⟩ ⟨6⟩ (by decide) (by decide) returned
  obtain ⟨divided, merged⟩ := guards ⟨4⟩ ⟨2⟩ ⟨0⟩ ⟨0, 24⟩ rfl rfl
  obtain ⟨parts, whole⟩ := divided [⟨1⟩] (by decide)
  have tested : Interpreter.threeChoices.evalExpr [[.any, .any, .isTrue]] ⟨2⟩ =
      .ok [⟨[.null, .any, .isTrue], .isTrue⟩, ⟨[.notNull, .any, .isTrue], .isFalse⟩] := rfl
  rw [tested] at parts
  exact ⟨rfl, fit, returned, same, evaluated fit, rfl, parts.trans rfl, whole fit,
    merged ⟨1⟩ ⟨6⟩ (by decide) (by decide) rfl⟩

end MethodContracts
