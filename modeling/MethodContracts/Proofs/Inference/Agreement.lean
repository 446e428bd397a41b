import MethodContracts.Inference.Infer
import MethodContracts.Proofs.Inference.Outcomes
import MethodContracts.Proofs.Inference.Paths

/-!
# Bodies are evaluated as their trees

On a valid body evaluation yields what the tree yields. The only fault left is a
state with too few slots, and evaluation never shortens a state.
-/
namespace MethodContracts

/-- The outcome is the value, unless `fits` fails and a slot is missing. -/
def Agrees {α : Type} (fits : Prop) (outcome : Except Fault α) (value : α) : Prop :=
  outcome = .ok value ∨ ¬fits ∧ ∃ slot, outcome = .error (.noSlot slot)

namespace Agrees

variable {α β : Type} {fits : Prop}

theorem pure (value : α) : Agrees fits (Pure.pure value) value := Or.inl rfl

theorem bind {outcome : Except Fault α} {value : α} {next : α → Except Fault β} {result : β}
    (first : Agrees fits outcome value) (rest : Agrees fits (next value) result) :
    Agrees fits (outcome >>= next) result := by
  rcases first with rfl | ⟨misfit, slot, rfl⟩
  · exact rest
  · exact Or.inr ⟨misfit, slot, rfl⟩

theorem weaken {other : Prop} {outcome : Except Fault α} {value : α}
    (agrees : Agrees other outcome value) (implied : fits → other) : Agrees fits outcome value := by
  rcases agrees with returned | ⟨misfit, missing⟩
  · exact Or.inl returned
  · exact Or.inr ⟨fun fit => misfit (implied fit), missing⟩

theorem mapM {f : α → Except Fault β} {g : α → β} (xs : List α)
    (each : ∀ x ∈ xs, Agrees fits (f x) (g x)) : Agrees fits (xs.mapM f) (xs.map g) := by
  induction xs with
  | nil => exact pure []
  | cons x xs ih =>
    rw [List.mapM_cons, List.map_cons]
    apply (each x List.mem_cons_self).bind
    apply (ih fun other member => each other (List.mem_cons_of_mem _ member)).bind
    exact pure _

theorem eq_ok {outcome : Except Fault α} {value : α} (agrees : Agrees fits outcome value)
    (fit : fits) : outcome = .ok value := by
  rcases agrees with returned | ⟨misfit, _⟩
  · exact returned
  · exact absurd fit misfit

theorem eq_value {outcome : Except Fault α} {value result : α}
    (agrees : Agrees fits outcome value) (returned : outcome = .ok result) : result = value := by
  rcases agrees with same | ⟨_, slot, missing⟩
  · rw [same] at returned
    cases returned
    rfl
  · rw [missing] at returned
    cases returned

end Agrees

/-- There is a value if `fits` holds, and any value there is has the property. -/
def Answers {α : Type} (fits : Prop) (outcome : Except Fault α) (property : α → Prop) : Prop :=
  (fits → ∃ value, outcome = .ok value) ∧ ∀ value, outcome = .ok value → property value

theorem Agrees.answers {α : Type} {fits : Prop} {outcome : Except Fault α} {value : α}
    {property : α → Prop} (agrees : Agrees fits outcome value) (holds : property value) :
    Answers fits outcome property := by
  refine ⟨fun fit => ⟨value, agrees.eq_ok fit⟩, fun result returned => ?_⟩
  rw [agrees.eq_value returned]
  exact holds

/-- Every state has a slot for every parameter. -/
def Fit (params : List String) (states : List Arguments) : Prop :=
  ∀ state ∈ states, params.length ≤ state.length

theorem Fit.argumentsWith {params : List String} {paths : List (List Use)}
    {states : List Arguments} {contracts : List Contract} (fit : Fit params states)
    (follows : ∀ contract ∈ contracts, Tree.Follows paths states contract) (result : Constraint) :
    Fit params (Contract.argumentsWith result contracts) := by
  intro state member
  obtain ⟨origin, found, path, _, along⟩ :=
    follows _ ((Contract.mem_argumentsWith _ _ _).mp member)
  -- Along a path a state keeps its length.
  have length : state.length = origin.length := along.length_eq
  have enough := fit origin found
  omega

/-- States that are handed on past a statement have slots as before. -/
private theorem Tree.Stmt.fit_next {params : List String} {limit : Option Nat} {stmt : Tree.Stmt}
    {states live : List Arguments} (fit : Fit params states)
    (next : (stmt.eval params limit states).next = some live) : Fit params live := by
  obtain ⟨condition, whenTrue, span, rfl, rfl⟩ := stmt.next_eq_some states live next
  exact fit.argumentsWith (condition.eval_follows states) .isFalse

namespace Interpreter

variable (i : Interpreter)

/-! ## One state -/

private theorem pin_agrees (state : Arguments) (slot : Nat) (constraint : Constraint) :
    Agrees (slot < state.length) (pin state slot constraint) (state.set slot constraint) := by
  simp only [pin, Arguments.pin?]
  by_cases inside : slot < state.length
  · simp only [inside, ite_true]
    exact Or.inl rfl
  · simp only [inside, ite_false]
    exact Or.inr ⟨id, slot, rfl⟩

private theorem compareState_agrees (slot : Nat) (constraint whenEqual : Constraint)
    (state : Arguments) :
    Agrees (slot < state.length) (compareState slot constraint whenEqual state)
      ((Tree.Atom.comparison slot constraint whenEqual).yield state) := by
  apply (pin_agrees state slot constraint).bind
  apply (pin_agrees state slot constraint.negate).bind
  exact Agrees.pure _

private theorem useState_agrees (slot : Nat) (state : Arguments) :
    Agrees (slot < state.length) (useState slot state) ((Tree.Atom.use slot).yield state) := by
  unfold useState
  simp only [Tree.Atom.yield]
  cases found : state[slot]? with
  | none =>
    have outside := List.getElem?_eq_none_iff.mp found
    exact Or.inr ⟨by omega, slot, rfl⟩
  | some known =>
    cases known with
    -- Nothing is known, so both truth values are pinned.
    | any =>
      apply (pin_agrees state slot .isTrue).bind
      apply (pin_agrees state slot .isFalse).bind
      exact Agrees.pure _
    | _ => exact Agrees.pure _

private theorem testState_agrees (slot : Nat) (state : Arguments) :
    Agrees (slot < state.length) (testState slot state)
      ⟨state.set slot .null, .isFalse⟩ := by
  apply (pin_agrees state slot .null).bind
  exact Agrees.pure _

end Interpreter

namespace Tree

/-! ## Trees -/

/-- A question has its answer of every state that has the slot it is about. -/
theorem Atom.outcome_agrees (atom : Atom) (state : Arguments) :
    Agrees (∀ use ∈ atom.use?, use.slot < state.length) (atom.outcome state)
      (atom.yield state) := by
  cases atom with
  | comparison slot constraint whenEqual =>
    apply (Interpreter.compareState_agrees slot constraint whenEqual state).weaken
    exact fun inside => inside _ rfl
  | typeTest slot =>
    apply Agrees.bind ((Interpreter.testState_agrees slot state).weaken fun inside => inside _ rfl)
    exact Agrees.pure _
  | constant constraint => exact Agrees.pure _
  | use slot =>
    apply (Interpreter.useState_agrees slot state).weaken
    exact fun inside => inside _ rfl
  | unknown => exact Agrees.pure _

theorem Atom.outcomes_agrees (atom : Atom) (states : List Arguments) :
    Agrees (∀ state ∈ states, ∀ use ∈ atom.use?, use.slot < state.length)
      (atom.outcomes states) (states.flatMap fun state => atom.yield state) := by
  have gathered : Agrees (∀ state ∈ states, ∀ use ∈ atom.use?, use.slot < state.length)
      (states.mapM fun state => atom.outcome state) (states.map fun state => atom.yield state) := by
    apply Agrees.mapM
    intro state member
    exact (atom.outcome_agrees state).weaken fun inside => inside state member
  rw [List.flatMap_def]
  exact gathered.bind (Agrees.pure _)

namespace Expr

variable {params : List String} {maxStates : Nat}

private theorem lt_of_slot? {expr : Expr} {slot : Nat} (found : expr.slot? params = some slot) :
    slot < params.length := by
  obtain ⟨word, span, rfl, named⟩ := slot?_eq_some found
  exact slot_lt_length named

private theorem lt_of_comparison? {left right : Expr} {slot : Nat} {constraint : Constraint}
    (found : left.comparison? params right = some (slot, constraint)) : slot < params.length := by
  rcases comparison?_eq_some found with ⟨named, _⟩ | ⟨named, _⟩
  · exact lt_of_slot? named
  · exact lt_of_slot? named

/-- Only parameters are asked about. -/
theorem lt_of_use? {expr : Expr} {use : Use} (used : use ∈ (expr.atom params).use?) :
    use.slot < params.length := by
  have asks := expr.atom_asks params
  generalize expr.atom params = atom at asks used
  cases asks with
  | equal found | notEqual found =>
    cases used
    exact lt_of_comparison? found
  | typeTest found =>
    cases used
    exact lt_of_slot? found
  | use named =>
    cases used
    exact slot_lt_length named
  | constant _ | unknown => cases used

private theorem atom_agrees (expr : Expr) (states : List Arguments) :
    Agrees (Fit params states) ((expr.atom params).outcomes states)
      (states.flatMap fun state => (expr.atom params).yield state) := by
  apply ((expr.atom params).outcomes_agrees states).weaken
  intro fit state member use used
  exact Nat.lt_of_lt_of_le (lt_of_use? used) (fit state member)

private theorem outcomeChain_agrees (stop : Constraint) (operands : List Expr)
    (each : ∀ operand ∈ operands, ∀ states, Agrees (Fit params states)
      (operand.outcome params maxStates states) (operand.eval params (some maxStates) states))
    (live : List Arguments) :
    Agrees (Fit params live) (outcomeChain params maxStates stop operands live)
      (evalChain params (some maxStates) stop operands live) := by
  induction operands generalizing live with
  | nil => exact Agrees.pure _
  | cons operand operands ih =>
    apply (each operand List.mem_cons_self live).bind
    -- The other operands see states of this operand, which fit if the given states do.
    have later := ih (fun other member => each other (List.mem_cons_of_mem _ member))
      (Contract.argumentsWith stop.negate (operand.eval params (some maxStates) live))
    apply (later.weaken fun fit => fit.argumentsWith (operand.eval_follows live) _).bind
    exact Agrees.pure _

/-- The outcome of an expression is its contracts, unless a state has too few slots. -/
theorem outcome_agrees (expr : Expr) (states : List Arguments) :
    Agrees (Fit params states) (expr.outcome params maxStates states)
      (expr.eval params (some maxStates) states) := by
  induction expr using byShape generalizing states with
  | chain op stop operands span stops each =>
    rw [outcome_chain stops, eval_chain stops]
    split
    next => exact outcomeChain_agrees stop operands each states
    next => exact Agrees.pure []
  | conditional condition whenTrue whenFalse span decides first second =>
    simp only [outcome, eval]
    split
    next =>
      -- What a branch sees fits if the given states do.
      have handed (result : Constraint) (fit : Fit params states) :
          Fit params (Contract.argumentsWith result
            (condition.eval params (some maxStates) states)) :=
        fit.argumentsWith (condition.eval_follows states) result
      apply (decides states).bind
      apply ((first _).weaken (handed .isTrue)).bind
      apply ((second _).weaken (handed .isFalse)).bind
      exact Agrees.pure _
    next => exact Agrees.pure []
  | paren inner span within =>
    simp only [outcome, eval]
    split
    next => exact within states
    next => exact Agrees.pure []
  | not operand span within =>
    simp only [outcome, eval]
    split
    next => exact (within states).bind (Agrees.pure _)
    next => exact Agrees.pure []
  | atomic expr atomic =>
    rw [outcome_atomic atomic, eval_atomic atomic]
    split
    next => exact expr.atom_agrees states
    next => exact Agrees.pure []

end Expr

namespace Stmt

variable {params : List String} {maxStates : Nat}

theorem outcome_agrees (stmt : Stmt) (states : List Arguments) :
    Agrees (Fit params states) (stmt.outcome params maxStates states)
      (stmt.eval params (some maxStates) states) := by
  induction stmt using byChildren generalizing states with
  | step stmt each =>
    have handed (condition : Expr) (result : Constraint) (fit : Fit params states) :
        Fit params (Contract.argumentsWith result
          (condition.eval params (some maxStates) states)) :=
      fit.argumentsWith (condition.eval_follows states) result
    cases stmt with
    | block statements span =>
      -- A block is looked into if it holds one statement.
      match statements with
      | [] | _ :: _ :: _ => exact Agrees.pure _
      | [only] => exact (each only List.mem_cons_self states).bind (Agrees.pure _)
    | ifElse condition whenTrue whenFalse span =>
      cases whenFalse with
      | none =>
        apply (condition.outcome_agrees states).bind
        apply ((each whenTrue List.mem_cons_self _).weaken (handed condition .isTrue)).bind
        exact Agrees.pure _
      | some whenFalse =>
        apply (condition.outcome_agrees states).bind
        apply ((each whenTrue List.mem_cons_self _).weaken (handed condition .isTrue)).bind
        apply ((each whenFalse (by simp [children]) _).weaken (handed condition .isFalse)).bind
        exact Agrees.pure _
    | returns value span =>
      cases value with
      | none => exact Agrees.pure _
      | some value => exact (value.outcome_agrees states).bind (Agrees.pure _)
    | assert condition message span => exact (condition.outcome_agrees states).bind (Agrees.pure _)
    | _ => exact Agrees.pure _

private theorem outcomeAll_agrees (stmts : List Stmt) (states : List Arguments) :
    Agrees (Fit params states) (outcomeAll params maxStates stmts states)
      (evalAll params (some maxStates) stmts states) := by
  induction stmts generalizing states with
  | nil => exact Agrees.pure _
  | cons stmt stmts ih =>
    apply (stmt.outcome_agrees states).bind
    simp only [evalAll]
    -- Statements after this one count only if states are handed on.
    cases next : (stmt.eval params (some maxStates) states).next with
    | none => exact Agrees.pure _
    | some live => exact ((ih live).weaken fun fit => fit_next fit next).bind (Agrees.pure _)

end Stmt

end Tree

namespace Interpreter

variable (i : Interpreter)

/-! ## Bodies -/

/-- On a valid body an expression yields what its tree yields, at any depth that
reaches it. -/
theorem evalExprWithin_agrees (valid : i.body.Valid) (depth : Nat) (id : ExprId)
    (inside : id.index < i.body.exprs.size) (deep : id.index < depth) (states : List Arguments) :
    Agrees (Fit i.params states) (i.evalExprWithin depth states id)
      ((i.body.exprTree id).eval i.params (some i.maxStates) states) := by
  rw [i.evalExprWithin_eq valid depth id inside deep]
  exact (i.body.exprTree id).outcome_agrees states

theorem evalExpr_agrees (valid : i.body.Valid) (id : ExprId)
    (inside : id.index < i.body.exprs.size) (states : List Arguments) :
    Agrees (Fit i.params states) (i.evalExpr states id)
      ((i.body.exprTree id).eval i.params (some i.maxStates) states) :=
  i.evalExprWithin_agrees valid _ id inside (by omega) states

/-- On a valid body statements yield what their trees yield, at any depth that reaches them. -/
theorem evalSequence_agrees (valid : i.body.Valid) (depth : Nat) (ids : List StmtId)
    (inside : ∀ id ∈ ids, id.index < i.body.stmts.size) (deep : ∀ id ∈ ids, id.index < depth)
    (states : List Arguments) :
    Agrees (Fit i.params states) (evalSequence (i.evalStmtWithin depth) states ids)
      (Tree.Stmt.evalAll i.params (some i.maxStates) (ids.map i.body.stmtTree) states) := by
  rw [i.evalSequence_eq valid depth ids inside deep]
  exact Tree.Stmt.outcomeAll_agrees _ states

theorem evalStmts_agrees (valid : i.body.Valid) (ids : List StmtId)
    (inside : ∀ id ∈ ids, id.index < i.body.stmts.size) (states : List Arguments) :
    Agrees (Fit i.params states) (i.evalStmts states ids)
      (Tree.Stmt.evalAll i.params (some i.maxStates) (ids.map i.body.stmtTree) states) := by
  rw [i.evalStmts_eq valid ids inside]
  exact Tree.Stmt.outcomeAll_agrees _ states

end Interpreter

/-! ## Methods -/

theorem Body.statements?_eq (body : Body) (valid : body.Valid) :
    ∃ ids, body.statements? = some ids ∧ (∀ id ∈ ids, id.index < body.stmts.size) ∧
      ids.map body.stmtTree = body.tree.statements := by
  obtain ⟨root, found⟩ := body.exists_stmt? body.root valid.root_lt
  have tree : body.tree = root.toTree body.exprTree body.stmtTree :=
    body.stmtTree_eq valid body.root root found
  simp only [statements?, found, Option.map_some, Option.some.injEq, exists_eq_left']
  -- A block stands for its statements, which lie before it, and any other root for itself.
  cases root with
  | block statements span =>
    refine ⟨fun id member => ?_, by rw [tree]; rfl⟩
    have before := valid.stmt_lt body.root.index _ found id member
    have placed := valid.root_lt
    omega
  | _ =>
    refine ⟨fun id member => ?_, ?_⟩
    · cases List.mem_singleton.mp member
      exact valid.root_lt
    · simp only [List.map_cons, List.map_nil]
      change [body.tree] = _
      rw [tree]
      rfl

/-- The contracts inferred from a valid body are those of its tree. -/
theorem Method.inferContracts_eq (method : Method) (body : Body) (present : method.body = some body)
    (valid : body.Valid) (maxStates : Nat) :
    method.inferContracts maxStates =
      .ok (Tree.Stmt.evalAll (method.params.map (·.name)) (some maxStates) body.tree.statements
        [Arguments.unknown method.params.length]) := by
  obtain ⟨ids, found, inside, trees⟩ := body.statements?_eq valid
  simp only [inferContracts, present, found]
  have agrees := (method.interpreter body maxStates).evalStmts_agrees valid ids inside
    [Arguments.unknown method.params.length]
  have fit : Fit (method.interpreter body maxStates).params
      [Arguments.unknown method.params.length] := by
    intro state member
    cases List.mem_singleton.mp member
    simp [Arguments.unknown, interpreter]
  rw [agrees.eq_ok fit]
  simp only [interpreter, trees]

end MethodContracts
