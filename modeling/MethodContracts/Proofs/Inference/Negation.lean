import MethodContracts.Proofs.Inference.Layout

/-!
# Where negations stand

Negations may be moved inward or outward without any effect on evaluation. A negated
chain ends early under the same states as the dual chain of negated operands, and with the
opposite result; a negated equality has its results exchanged, as an inequality has. What
has no truth value is dropped on both sides, and three negations do what one does: two may
not be left out, since they drop results that are not boolean.
-/
namespace MethodContracts

namespace Contract

variable {result : Constraint}

private theorem negated_append (first second : List Contract) :
    negated (first ++ second) = negated first ++ negated second := by
  simp only [negated, List.filter_append, List.map_append]

/-- Of truth values nothing is dropped. -/
private theorem negated_of_boolean {contracts : List Contract}
    (boolean : ∀ contract ∈ contracts, contract.result = .isTrue ∨ contract.result = .isFalse) :
    negated contracts =
      contracts.map fun contract => ⟨contract.arguments, contract.result.negate⟩ := by
  have kept : contracts.filter (fun contract =>
      contract.result == .isTrue || contract.result == .isFalse) = contracts := by
    apply List.filter_eq_self.mpr
    intro contract member
    simpa only [Bool.or_eq_true, beq_iff_eq] using boolean contract member
  rw [negated, kept]

private theorem negated_each (boolean : result = .isTrue ∨ result = .isFalse)
    (states : List Arguments) : negated (each states result) = each states result.negate := by
  rw [negated_of_boolean, each, List.map_map]
  · rfl
  · intro contract member
    rw [((mem_each _ _ _).mp member).2]
    exact boolean

/-- What is negated to the opposite of a truth value had this value. -/
private theorem filter_negated (boolean : result = .isTrue ∨ result = .isFalse)
    (contracts : List Contract) :
    (negated contracts).filter (·.result == result.negate) =
      negated (contracts.filter (·.result == result)) := by
  simp only [negated, List.filter_map, List.filter_filter, Function.comp_def]
  congr 1
  apply List.filter_congr
  intro contract _
  rcases boolean with rfl | rfl <;> cases contract.result <;> rfl

private theorem argumentsWith_negated (boolean : result = .isTrue ∨ result = .isFalse)
    (contracts : List Contract) :
    argumentsWith result.negate (negated contracts) = argumentsWith result contracts := by
  rw [argumentsWith, filter_negated boolean, negated_of_boolean, List.map_map]
  · rfl
  · intro contract member
    rw [beq_iff_eq.mp (List.mem_filter.mp member).2]
    exact boolean

/-- What is left after one negation has a truth value, so two more change nothing. -/
private theorem negated_negated_negated (contracts : List Contract) :
    negated (negated (negated contracts)) = negated contracts := by
  have boolean (others : List Contract) : ∀ contract ∈ negated others,
      contract.result = .isTrue ∨ contract.result = .isFalse :=
    fun contract member => ((mem_negated others contract).mp member).1
  rw [negated_of_boolean (boolean (negated contracts)), negated_of_boolean (boolean contracts),
    List.map_map]
  simp only [Function.comp_def, Constraint.negate_negate, List.map_id']

end Contract

namespace Tree

/-- Questions with opposite answers, if they have any. -/
inductive Atom.Opposite : Atom → Atom → Prop
  | equal (slot : Nat) (constraint : Constraint) :
    Opposite (.comparison slot constraint .isTrue) (.comparison slot constraint .isFalse)
  | notEqual (slot : Nat) (constraint : Constraint) :
    Opposite (.comparison slot constraint .isFalse) (.comparison slot constraint .isTrue)
  | unknown : Opposite .unknown .unknown

theorem Atom.Opposite.symm {atom other : Atom} (opposite : atom.Opposite other) :
    other.Opposite atom := by
  cases opposite with
  | equal slot constraint => exact .notEqual slot constraint
  | notEqual slot constraint => exact .equal slot constraint
  | unknown => exact .unknown

theorem Atom.Opposite.outcome_eq {atom other : Atom} (opposite : atom.Opposite other)
    (state : Arguments) : Contract.negated <$> atom.outcome state = other.outcome state := by
  cases opposite with
  | equal | notEqual =>
    simp only [Atom.outcome, Interpreter.compareState, map_bind, map_pure]
    rfl
  | unknown => rfl

/-- One state after the other has the opposite answers. -/
theorem Atom.Opposite.outcomes_eq {atom other : Atom} (opposite : atom.Opposite other)
    (states : List Arguments) :
    Contract.negated <$> atom.outcomes states = other.outcomes states := by
  induction states with
  | nil => rfl
  | cons state states ih =>
    simp only [Atom.outcomes, List.mapM_cons, bind_assoc, pure_bind, map_bind, map_pure,
      List.flatten_cons, Contract.negated_append, ← opposite.outcome_eq state,
      bind_map_left] at ih ⊢
    apply bind_congr
    intro contracts
    have later := congrArg (fun outcome => (Contract.negated contracts ++ ·) <$> outcome) ih
    simpa only [map_bind, map_pure] using later

namespace Expr

/-- The expressions are the same up to the places where negations stand. -/
inductive Pushed : Expr → Expr → Prop
  /-- A negated `a && … && z`, and `!a || … || !z`. -/
  | conjunction (operands : List Expr) (span : Span) :
    Pushed (.unary .not (.chain .and operands span) span)
      (.chain .or (operands.map (.unary .not · span)) span)
  /-- A negated `a || … || z`, and `!a && … && !z`. -/
  | disjunction (operands : List Expr) (span : Span) :
    Pushed (.unary .not (.chain .or operands span) span)
      (.chain .and (operands.map (.unary .not · span)) span)
  | conditional (condition whenTrue whenFalse : Expr) (span : Span) :
    Pushed (.unary .not (.conditional condition whenTrue whenFalse span) span)
      (.conditional condition (.unary .not whenTrue span) (.unary .not whenFalse span) span)
  | paren (inner : Expr) (span : Span) : Pushed (.paren inner span) inner
  /-- A negated `a == b`, and `a != b`. -/
  | equal (operands : List Expr) (span : Span) :
    Pushed (.unary .not (.chain .equal operands span) span) (.chain .notEqual operands span)
  /-- A negated `a != b`, and `a == b`. -/
  | notEqual (operands : List Expr) (span : Span) :
    Pushed (.unary .not (.chain .notEqual operands span) span) (.chain .equal operands span)
  | triple (operand : Expr) (span : Span) :
    Pushed (.unary .not (.unary .not (.unary .not operand span) span) span)
      (.unary .not operand span)
  /-- Spans do not count. -/
  | spans {left right : Expr} (same : left.withoutSpans = right.withoutSpans) : Pushed left right
  | symm {left right : Expr} (pushed : Pushed left right) : Pushed right left
  | trans {left middle right : Expr} (first : Pushed left middle) (second : Pushed middle right) :
    Pushed left right
  /-- An operand of a chain that is evaluated. -/
  | operand {op : BinaryOp} {stop : Constraint} (stops : op.stop? = some stop) {left right : Expr}
    (before after : List Expr) (span : Span) (pushed : Pushed left right) :
    Pushed (.chain op (before ++ left :: after) span) (.chain op (before ++ right :: after) span)
  /-- The parts of a conditional. -/
  | parts {condition condition' whenTrue whenTrue' whenFalse whenFalse' : Expr} (span : Span)
    (decides : Pushed condition condition') (first : Pushed whenTrue whenTrue')
    (second : Pushed whenFalse whenFalse') :
    Pushed (.conditional condition whenTrue whenFalse span)
      (.conditional condition' whenTrue' whenFalse' span)
  | negation {left right : Expr} (span : Span) (pushed : Pushed left right) :
    Pushed (.unary .not left span) (.unary .not right span)

variable {params : List String} {maxStates : Nat}

/-- The dual chain of negated operands ends under the same states with the opposite result. -/
private theorem outcomeChain_negated {stop : Constraint}
    (boolean : stop = .isTrue ∨ stop = .isFalse)
    (span : Span) (operands : List Expr) (live : List Arguments) :
    Contract.negated <$> outcomeChain params maxStates stop operands live =
      outcomeChain params maxStates stop.negate (operands.map (.unary .not · span)) live := by
  have opposite : stop.negate = .isTrue ∨ stop.negate = .isFalse := by
    rcases boolean with rfl | rfl <;> simp [Constraint.negate]
  induction operands generalizing live with
  | nil =>
    simp only [List.map_nil, outcomeChain, map_pure, Contract.negated_each opposite]
  | cons operand operands ih =>
    -- What ends the one chain is negated to what ends the other, and so is what goes on.
    simp only [List.map_cons, outcomeChain, outcome_not, bind_map_left, map_bind, map_pure,
      Contract.negated_append, Contract.filter_negated boolean,
      Contract.argumentsWith_negated opposite, ← ih]

/-- A negated chain has the outcome of the dual chain of negated operands. -/
private theorem outcome_not_chain {op dual : BinaryOp} {stop : Constraint}
    (stops : op.stop? = some stop)
    (dualStops : dual.stop? = some stop.negate) (operands : List Expr) (span : Span)
    (states : List Arguments) :
    (unary .not (chain op operands span) span).outcome params maxStates states =
      (chain dual (operands.map (.unary .not · span)) span).outcome params maxStates states := by
  have boolean : stop = .isTrue ∨ stop = .isFalse := by
    cases op <;> cases stops <;> simp
  rw [outcome_not, outcome_chain stops, outcome_chain dualStops]
  split
  next => exact outcomeChain_negated boolean span operands states
  next => rfl

/-- Chains of the two equality operators ask for opposite answers. -/
private theorem atom_opposite (operands : List Expr) (span : Span) :
    ((chain .equal operands span).atom params).Opposite
      ((chain .notEqual operands span).atom params) := by
  -- Only two operands are compared.
  rcases operands with _ | ⟨left, _ | ⟨right, _ | ⟨other, others⟩⟩⟩
  · exact .unknown
  · exact .unknown
  · simp only [atom]
    cases left.comparison? params right with
    | none => exact .unknown
    | some pair => exact .equal pair.1 pair.2
  · exact .unknown

private theorem outcome_not_atomic {expr other : Expr} (atomic : expr.isAtomic = true)
    (otherAtomic : other.isAtomic = true)
    (opposite : (expr.atom params).Opposite (other.atom params)) (span : Span)
    (states : List Arguments) :
    (unary .not expr span).outcome params maxStates states =
      other.outcome params maxStates states := by
  rw [outcome_not, outcome_atomic atomic, outcome_atomic otherAtomic]
  split
  next => exact opposite.outcomes_eq states
  next => rfl

/-- Operands with the same outcomes can take each other's place in a chain. -/
private theorem outcomeChain_replace {left right : Expr}
    (same : ∀ states, left.outcome params maxStates states = right.outcome params maxStates states)
    (stop : Constraint) (before after : List Expr) (live : List Arguments) :
    outcomeChain params maxStates stop (before ++ left :: after) live =
      outcomeChain params maxStates stop (before ++ right :: after) live := by
  induction before generalizing live with
  | nil => simp only [List.nil_append, outcomeChain, same]
  | cons operand before ih => simp only [List.cons_append, outcomeChain, ih]

/-- Where negations stand makes no difference for evaluation. -/
theorem Pushed.outcome_eq {left right : Expr} (pushed : left.Pushed right)
    (states : List Arguments) :
    left.outcome params maxStates states = right.outcome params maxStates states := by
  induction pushed generalizing states with
  | conjunction operands span => exact outcome_not_chain rfl rfl operands span states
  | disjunction operands span => exact outcome_not_chain rfl rfl operands span states
  | conditional condition whenTrue whenFalse span =>
    rw [outcome_not, outcome_conditional, outcome_conditional]
    split
    next =>
      -- Both parts of what the branches yield are negated.
      simp only [outcome_not, map_bind, map_pure, bind_map_left, Contract.negated_append]
    next => rfl
  | paren inner span => exact outcome_paren inner span states
  | equal operands span =>
    exact outcome_not_atomic rfl rfl (atom_opposite operands span) span states
  | notEqual operands span =>
    exact outcome_not_atomic rfl rfl (atom_opposite operands span).symm span states
  | triple operand span =>
    simp only [outcome_not, Functor.map_map, Contract.negated_negated_negated]
  | spans same => rw [← outcome_withoutSpans, same, outcome_withoutSpans]
  | symm _ same => exact (same states).symm
  | trans _ _ first second => exact (first states).trans (second states)
  | operand stops before after span _ same =>
    rw [outcome_chain stops, outcome_chain stops, outcomeChain_replace same]
  | parts span _ _ _ decides first second => simp only [outcome, decides, first, second]
  | negation span _ same => rw [outcome_not, outcome_not, same]

end Expr

end Tree

/-- Expressions that are the same up to where negations stand have the same contracts in
the same order under all states, or the same fault; under states with a slot for every
parameter there is none. -/
theorem Interpreter.evalExpr_pushed (left right : Interpreter)
    (sameParams : left.params = right.params) (sameLimit : left.maxStates = right.maxStates)
    (accepted : left.body.validate = .ok ()) (accepted' : right.body.validate = .ok ())
    (id id' : ExprId) (inside : id.index < left.body.exprs.size)
    (inside' : id'.index < right.body.exprs.size)
    (pushed : (left.body.exprTree id).Pushed (right.body.exprTree id')) (states : List Arguments) :
    left.evalExpr states id = right.evalExpr states id' ∧
      (Fit left.params states → ∃ contracts, left.evalExpr states id = .ok contracts) := by
  have valid := left.body.valid_of_validate accepted
  have valid' := right.body.valid_of_validate accepted'
  constructor
  · -- Both arenas are evaluated as their trees are, faults included.
    rw [left.evalExpr_eq valid id inside, right.evalExpr_eq valid' id' inside', sameParams,
      sameLimit, pushed.outcome_eq]
  · intro fit
    exact ⟨_, (left.evalExpr_agrees valid id inside states).eq_ok fit⟩

/-- The body `assert !(x == null && (y || z)); return x != null || !y && !z;`. -/
def Body.negatedChoice : Body where
  root := ⟨2⟩
  stmts := #[.assert ⟨9⟩ none ⟨0, 32⟩, .returns (some ⟨14⟩) ⟨33, 62⟩, .block [⟨0⟩, ⟨1⟩] ⟨0, 62⟩]
  exprs := #[.name "x" ⟨9, 10⟩, .literal .null "null" ⟨14, 18⟩, .chain .equal [⟨0⟩, ⟨1⟩] ⟨9, 18⟩,
    .name "y" ⟨23, 24⟩, .name "z" ⟨28, 29⟩, .chain .or [⟨3⟩, ⟨4⟩] ⟨23, 29⟩, .paren ⟨5⟩ ⟨22, 30⟩,
    .chain .and [⟨2⟩, ⟨6⟩] ⟨9, 30⟩, .paren ⟨7⟩ ⟨8, 31⟩, .unary .not ⟨8⟩ ⟨7, 31⟩,
    .chain .notEqual [⟨0⟩, ⟨1⟩] ⟨40, 49⟩, .unary .not ⟨3⟩ ⟨53, 55⟩, .unary .not ⟨4⟩ ⟨59, 61⟩,
    .chain .and [⟨11⟩, ⟨12⟩] ⟨53, 61⟩, .chain .or [⟨10⟩, ⟨13⟩] ⟨40, 61⟩]

/-- The negation of the condition is pushed to the names and to the test. -/
theorem Body.negatedChoice_pushed :
    (Body.negatedChoice.exprTree ⟨9⟩).Pushed (Body.negatedChoice.exprTree ⟨14⟩) := by
  let nowhere : Span := .point 0
  let names : List Tree.Expr := [.name "x" nowhere, .literal .null "null" nowhere]
  let either : Tree.Expr := .chain .or [.name "y" nowhere, .name "z" nowhere] nowhere
  let both : List Tree.Expr := [.chain .equal names nowhere, .paren either nowhere]
  have written : (Body.negatedChoice.exprTree ⟨9⟩).Pushed
      (.unary .not (.paren (.chain .and both nowhere) nowhere) nowhere) := .spans rfl
  have opened := Tree.Expr.Pushed.negation nowhere (.paren (.chain .and both nowhere) nowhere)
  have divided := Tree.Expr.Pushed.conjunction both nowhere
  -- Of the two operands each is pushed further.
  have stops : BinaryOp.or.stop? = some .isTrue := rfl
  have compared := Tree.Expr.Pushed.operand stops []
    [.unary .not (.paren either nowhere) nowhere] nowhere (.equal names nowhere)
  have last := (Tree.Expr.Pushed.negation nowhere (.paren either nowhere)).trans
    (.disjunction [.name "y" nowhere, .name "z" nowhere] nowhere)
  have ended := Tree.Expr.Pushed.operand stops [.chain .notEqual names nowhere] [] nowhere last
  exact written.trans (opened.trans (divided.trans (compared.trans (ended.trans (.spans rfl)))))

/-- The body with its parameters, under a limit of two states. -/
def Interpreter.negatedChoice : Interpreter := ⟨.negatedChoice, ["x", "y", "z"], 2⟩

theorem Interpreter.evalExpr_pushed_negatedChoice :
    Body.negatedChoice.validate = .ok () ∧
      (Body.negatedChoice.exprTree ⟨9⟩).Pushed (Body.negatedChoice.exprTree ⟨14⟩) ∧
      Fit ["x", "y", "z"] [[.any, .notNull, .any], [.notNull, .isTrue, .any]] ∧
      Interpreter.negatedChoice.evalExpr [[.any, .notNull, .any], [.notNull, .isTrue, .any]] ⟨9⟩ =
        .ok [⟨[.notNull, .notNull, .any], .isTrue⟩, ⟨[.notNull, .isTrue, .any], .isTrue⟩,
          ⟨[.null, .isTrue, .any], .isFalse⟩] ∧
      ∃ contracts, Interpreter.negatedChoice.evalExpr
        [[.any, .notNull, .any], [.notNull, .isTrue, .any]] ⟨9⟩ = .ok contracts := by
  have fit : Fit ["x", "y", "z"] [[.any, .notNull, .any], [.notNull, .isTrue, .any]] := by
    unfold Fit
    decide
  obtain ⟨same, returned⟩ := Interpreter.evalExpr_pushed .negatedChoice .negatedChoice rfl rfl rfl
    rfl ⟨9⟩ ⟨14⟩ (by decide) (by decide) Body.negatedChoice_pushed
    [[.any, .notNull, .any], [.notNull, .isTrue, .any]]
  -- The contracts are computed on the side without the outer negation.
  exact ⟨rfl, Body.negatedChoice_pushed, fit, same.trans rfl, returned fit⟩

end MethodContracts
