import MethodContracts.Proofs.Body.Validity
import MethodContracts.Proofs.Inference.Agreement

/-!
# Evaluation meets no fault

A fault is a reference or a slot that does not exist, or a circle of references.
A body that the check accepts has none of these: whatever is evaluated of it ends
with a result, and nests no deeper than the place it starts from.
-/
namespace MethodContracts

/-- Under these states everything in the arenas can be evaluated, and a depth that
exceeds the places it starts from changes nothing. -/
structure Interpreter.Total (i : Interpreter) (states : List Arguments) : Prop where
  expr : ∀ id : ExprId, id.index < i.body.exprs.size →
    ∃ contracts, i.evalExpr states id = .ok contracts ∧
      ∀ depth, id.index < depth → i.evalExprWithin depth states id = .ok contracts
  stmts : ∀ ids : List StmtId, (∀ id ∈ ids, id.index < i.body.stmts.size) →
    ∃ contracts, i.evalStmts states ids = .ok contracts ∧
      ∀ depth, (∀ id ∈ ids, id.index < depth) →
        Interpreter.evalSequence (i.evalStmtWithin depth) states ids = .ok contracts
  returns : ∀ id : StmtId, id.index < i.body.stmts.size →
    ∃ always, i.alwaysReturns id = .ok always ∧
      ∀ depth, id.index < depth → i.alwaysReturnsWithin depth id = .ok always

theorem Fit.of_length_eq {params : List String} {states : List Arguments}
    (full : ∀ state ∈ states, state.length = params.length) : Fit params states :=
  fun state member => Nat.le_of_eq (full state member).symm

theorem Interpreter.total (i : Interpreter) (valid : i.body.Valid) (states : List Arguments)
    (fit : Fit i.params states) : i.Total states where
  expr id inside := by
    have agrees := i.evalExpr_agrees valid id inside states
    refine ⟨_, agrees.eq_ok fit, ?_⟩
    intro depth deep
    exact (i.evalExprWithin_agrees valid depth id inside deep states).eq_ok fit
  stmts ids inside := by
    have agrees := i.evalStmts_agrees valid ids inside states
    refine ⟨_, agrees.eq_ok fit, ?_⟩
    intro depth deep
    exact (i.evalSequence_agrees valid depth ids inside deep states).eq_ok fit
  returns id inside :=
    ⟨_, i.alwaysReturns_eq valid id inside,
      fun depth deep => i.alwaysReturnsWithin_eq valid depth id inside deep⟩

/-- The contracts of a method can always be inferred if the check accepts its body, and
everything in that body can be evaluated under states with one slot for each parameter. -/
theorem Method.inferContracts_total (method : Method)
    (accepted : ∀ body ∈ method.body, body.validate = .ok ()) (maxStates : Nat) :
    (∃ contracts, method.inferContracts maxStates = .ok contracts) ∧
      ∀ body ∈ method.body, ∀ states : List Arguments,
        (∀ state ∈ states, state.length = method.params.length) →
          (method.interpreter body maxStates).Total states := by
  constructor
  · cases present : method.body with
    | none =>
      have empty : method.inferContracts maxStates = .ok [] := by
        simp only [inferContracts, present]
      exact ⟨[], empty⟩
    | some body =>
      have valid := body.valid_of_validate (accepted body present)
      exact ⟨_, method.inferContracts_eq body present valid maxStates⟩
  · intro body present states full
    have valid := body.valid_of_validate (accepted body present)
    -- A state that knows all parameters has a slot for each of them.
    have fit : Fit (method.interpreter body maxStates).params states := by
      apply Fit.of_length_eq
      intro state member
      rw [full state member]
      exact (List.length_map _).symm
    exact (method.interpreter body maxStates).total valid states fit

/-- The body `if (x == null) throw x; return x instanceof T ? y : !y;`. -/
def Body.guardedChoice : Body where
  root := ⟨3⟩
  stmts := #[.throws ⟨0⟩ ⟨15, 23⟩, .ifElse ⟨2⟩ ⟨0⟩ none ⟨0, 23⟩, .returns (some ⟨6⟩) ⟨24, 55⟩,
    .block [⟨1⟩, ⟨2⟩] ⟨0, 55⟩]
  exprs := #[.name "x" ⟨4, 5⟩, .literal .null "null" ⟨9, 13⟩, .chain .equal [⟨0⟩, ⟨1⟩] ⟨4, 13⟩,
    .instanceOf ⟨0⟩ "T" ⟨31, 45⟩, .name "y" ⟨48, 49⟩, .unary .not ⟨4⟩ ⟨52, 54⟩,
    .conditional ⟨3⟩ ⟨4⟩ ⟨5⟩ ⟨31, 54⟩]

def Method.guardedChoice : Method where
  name := "f"
  owner := none
  params := [⟨"x", "Object"⟩, ⟨"y", "boolean"⟩]
  annotations := []
  body := some .guardedChoice
  span := ⟨0, 55⟩

theorem Method.inferContracts_total_guardedChoice :
    (∀ body ∈ Method.guardedChoice.body, body.validate = .ok ()) ∧
      (∀ state ∈ [[Constraint.notNull, .any], [.any, .isTrue]],
        state.length = Method.guardedChoice.params.length) ∧
      (∃ contracts, Method.guardedChoice.inferContracts 300 = .ok contracts) ∧
      (Method.guardedChoice.interpreter .guardedChoice 300).Total
        [[.notNull, .any], [.any, .isTrue]] := by
  have accepted : ∀ body ∈ Method.guardedChoice.body, body.validate = .ok () := by
    intro body present
    cases present
    rfl
  have full : ∀ state ∈ [[Constraint.notNull, .any], [.any, .isTrue]],
      state.length = Method.guardedChoice.params.length := by decide
  have total := Method.inferContracts_total .guardedChoice accepted 300
  exact ⟨accepted, full, total.1, total.2 .guardedChoice rfl _ full⟩

end MethodContracts
