import MethodContracts.Proofs.Body.Validity
import MethodContracts.Proofs.Execution.Inversion
import MethodContracts.Proofs.Execution.Total
import MethodContracts.Proofs.Execution.TwoValued
import MethodContracts.Proofs.Inference.Agreement
import MethodContracts.Proofs.Inference.Bounds

/-!
# Every case of a two-valued body is found

In a body whose conditions are two-valued nothing is lost: whatever the values
of the parameters, some contract admits them and says exactly what the body does.

The state that admits the values is followed through evaluation. Each test splits
it in two, of which one admits the values again, even if the test replaces what
was known. As long as the limit is not below two to the number of uses, there are
never too many states to go on.
-/
namespace MethodContracts

namespace Tree

/-! ## The state that is followed -/

variable {params : List String} {kinds : Nat → Kind} {values : Values}

/-- The state admits the values, and says nothing of a boolean parameter but
whether it is true. -/
structure Covers (params : List String) (kinds : Nat → Kind) (values : Values)
    (state : Arguments) : Prop where
  fit : params.length ≤ state.length
  admits : state.Admits values
  boolean : ∀ (slot : Nat) (known : Constraint), kinds slot = .boolean →
    state[slot]? = some known → known = .any ∨ ∃ truth, known = .ofBool truth

/-- A slot may be pinned to whatever is true of its value, whatever was known of it. -/
theorem Covers.set {state : Arguments} (covers : Covers params kinds values state) (slot : Nat)
    (constraint : Constraint) (admitted : constraint.admits (values slot) = true)
    (boolean : kinds slot = .boolean → ∃ truth, constraint = .ofBool truth) :
    Covers params kinds values (state.set slot constraint) where
  fit := by
    rw [List.length_set]
    exact covers.fit
  admits other known found := by
    -- The pinned slot holds what was pinned, every other what it held.
    rw [List.getElem?_set] at found
    split at found
    next same =>
      subst same
      rw [Option.ite_none_right_eq_some] at found
      cases found.2
      exact admitted
    next => exact covers.admits other known found
  boolean other known isBoolean found := by
    rw [List.getElem?_set] at found
    split at found
    next same =>
      subst same
      rw [Option.ite_none_right_eq_some] at found
      cases found.2
      exact Or.inr (boolean isBoolean)
    next => exact covers.boolean other known isBoolean found

/-! ## Conditions -/

namespace Expr

variable {maxStates : Nat}

/-- The expression comes out as `truth` whenever it is evaluated, and from a state
that covers the values a contract is inferred that says so. -/
structure Settles (params : List String) (kinds : Nat → Kind) (maxStates : Nat) (values : Values)
    (expr : Expr) (truth : Bool) : Prop where
  decides : expr.Decides params values truth
  covered : ∀ states : List Arguments, states.length * 2 ^ expr.uses params ≤ maxStates →
    ∀ state ∈ states, Covers params kinds values state →
      ∃ arguments, Covers params kinds values arguments ∧
        ⟨arguments, .ofBool truth⟩ ∈ expr.eval params (some maxStates) states

/-- The same for operands from left to right. -/
structure ChainSettles (params : List String) (kinds : Nat → Kind) (maxStates : Nat)
    (values : Values) (stop : Bool) (operands : List Expr) (truth : Bool) : Prop where
  decides : ∀ outcome after, EvaluatesChain params stop operands values outcome after →
    after = values ∧ outcome = .value (.ofBool truth)
  covered : ∀ live : List Arguments, live.length * 2 ^ usesAll params operands ≤ maxStates →
    ∀ state ∈ live, Covers params kinds values state →
      ∃ arguments, Covers params kinds values arguments ∧
        ⟨arguments, .ofBool truth⟩ ∈ evalChain params (some maxStates) (.ofBool stop) operands live

/-- A settled expression hands on a state that covers the values, and leaves room
for the uses after it. -/
theorem Settles.hands {expr : Expr} {truth : Bool}
    (settles : expr.Settles params kinds maxStates values truth) {states : List Arguments}
    {whole : Nat} (enough : states.length * 2 ^ whole ≤ maxStates) {state : Arguments}
    (member : state ∈ states) (covers : Covers params kinds values state) (rest : Nat)
    (counted : expr.uses params + rest ≤ whole) :
    ∃ middle ∈ Contract.argumentsWith (.ofBool truth) (expr.eval params (some maxStates) states),
      Covers params kinds values middle ∧
        (Contract.argumentsWith (.ofBool truth)
          (expr.eval params (some maxStates) states)).length * 2 ^ rest ≤ maxStates := by
  -- The room that `whole` grants is enough for the expression and leaves the rest.
  have own : expr.uses params ≤ whole := Nat.le_trans (Nat.le_add_right _ _) counted
  obtain ⟨middle, covers, found⟩ :=
    settles.covered states (room_of_le own enough) state member covers
  exact ⟨middle, (Contract.mem_argumentsWith _ _ _).mpr found, covers,
    expr.handed_le (some maxStates) states enough (.ofBool truth) rest counted⟩

/-- An atomic expression settles if its answer for a state that covers the values does. -/
theorem Settles.of_yield {expr : Expr} {truth : Bool} (atomic : expr.isAtomic = true)
    (decides : expr.Decides params values truth)
    (yields : ∀ state, Covers params kinds values state →
      ∃ arguments, Covers params kinds values arguments ∧
        ⟨arguments, .ofBool truth⟩ ∈ (expr.atom params).yield state) :
    expr.Settles params kinds maxStates values truth where
  decides := decides
  covered states enough state member covers := by
    obtain ⟨arguments, covers, yielded⟩ := yields state covers
    refine ⟨arguments, covers, ?_⟩
    rw [eval_atomic atomic, if_pos (heeded_of_le member enough)]
    exact List.mem_flatMap.mpr ⟨state, member, yielded⟩

theorem Settles.flag {word : String} {span : Span} {slot : Nat} {truth : Bool}
    (named : params.idxOf? word = some slot) (boolean : kinds slot = .boolean)
    (value : values slot = .ofBool truth) :
    (name word span).Settles params kinds maxStates values truth := by
  apply Settles.of_yield rfl
  · intro outcome after run
    rw [← value]
    exact run.of_name named
  · intro state covers
    have inside : slot < state.length := Nat.lt_of_lt_of_le (slot_lt_length named) covers.fit
    have found : state[slot]? = some state[slot] := List.getElem?_eq_getElem inside
    have pinned : Covers params kinds values (state.set slot (.ofBool truth)) := by
      apply covers.set
      · rw [value]
        exact (Constraint.admits_ofBool truth _).mpr rfl
      · intro _
        exact ⟨truth, rfl⟩
    simp only [atom, named, Atom.yield]
    -- The slot of a boolean parameter is open or holds a truth value.
    rcases covers.boolean slot _ boolean found with unknown | ⟨other, known⟩
    · rw [found, unknown]
      refine ⟨_, pinned, ?_⟩
      cases truth with
      | true => exact List.mem_cons_self
      | false => exact List.mem_cons_of_mem _ List.mem_cons_self
    · -- What is known of the parameter is what it is.
      have admitted := covers.admits slot _ found
      rw [known, value, Constraint.admits_ofBool, Value.ofBool_inj] at admitted
      subst admitted
      rw [found, known]
      refine ⟨state, covers, ?_⟩
      cases truth with
      | true | false => exact List.mem_singleton_self _

theorem Settles.literal {kind : Literal} {text : String} {span : Span} {truth : Bool}
    (value : kind.value? = some (.ofBool truth))
    (constraint : kind.constraint? = some (.ofBool truth)) :
    (Expr.literal kind text span).Settles params kinds maxStates values truth := by
  apply Settles.of_yield rfl
  · intro outcome after run
    exact run.of_literal value
  · intro state covers
    simp only [atom, constraint]
    exact ⟨state, covers, List.mem_singleton_self _⟩

/-- A literal that a parameter may be compared with stands for a constraint, which
tells its values apart. -/
private theorem constraint_of_value {kind : Literal} {value other : Value} {sort : Kind}
    (constant : kind.value? = some value) (may : sort.Compares value) (has : sort.Has other) :
    ∃ constraint, kind.constraint? = some constraint ∧
      (other = value → constraint.admits other = true) ∧
      (other ≠ value → constraint.negate.admits other = true) ∧
      (sort = .boolean → ∃ truth, constraint = .ofBool truth) := by
  cases sort with
  | boolean =>
    obtain ⟨truth, rfl⟩ := may
    obtain ⟨actual, rfl⟩ := has
    refine ⟨.ofBool truth, ?_, ?_, ?_, fun _ => ⟨truth, rfl⟩⟩
    · -- The literal that has this value is the only one that stands for the constraint.
      cases kind <;> cases truth <;> first | rfl | cases constant
    · intro same
      exact (Constraint.admits_ofBool truth _).mpr same
    · intro other
      rw [Constraint.negate_ofBool, Constraint.admits_ofBool, Value.ofBool_inj]
      rw [Ne, Value.ofBool_inj] at other
      exact Bool.eq_not.mpr other
  | reference =>
    cases may
    refine ⟨.null, ?_, ?_, ?_, fun impossible => by cases impossible⟩
    · cases kind <;> first | rfl | cases constant
    · intro same
      exact decide_eq_true same
    · intro other
      exact decide_eq_true other

private theorem comparison?_of_compares {left right : Expr} {slot : Nat} {value : Value}
    {other : Value}
    {sort : Kind} (compares : Compares params left right slot value) (may : sort.Compares value)
    (has : sort.Has other) :
    ∃ constraint, left.comparison? params right = some (slot, constraint) ∧
      (other = value → constraint.admits other = true) ∧
      (other ≠ value → constraint.negate.admits other = true) ∧
      (sort = .boolean → ∃ truth, constraint = .ofBool truth) := by
  cases compares with
  | paramFirst named constant | literalFirst named constant =>
    obtain ⟨constraint, found, rest⟩ := constraint_of_value constant may has
    refine ⟨constraint, ?_, rest⟩
    simp only [comparison?, slot?, constant?, named, found]

theorem Settles.comparison {op : BinaryOp} {whenEqual : Bool}
    (meaning : op.whenEqual? = some whenEqual) {left right : Expr} {span : Span} {slot : Nat}
    {value : Value} (compares : Compares params left right slot value)
    (may : (kinds slot).Compares value) (has : (kinds slot).Has (values slot)) :
    (chain op [left, right] span).Settles params kinds maxStates values
      (if values slot = value then whenEqual else !whenEqual) := by
  obtain ⟨constraint, found, same, other, boolean⟩ := comparison?_of_compares compares may has
  have asks : (chain op [left, right] span).atom params =
      .comparison slot constraint (.ofBool whenEqual) := by
    cases op with
    | equal | notEqual =>
      cases meaning
      simp only [atom, found, Constraint.ofBool]
    | _ => cases meaning
  apply Settles.of_yield
  · cases op with
    | equal | notEqual => rfl
    | _ => cases meaning
  · intro outcome after run
    apply run.of_comparison meaning compares
    -- A boolean parameter is never null, and a reference is compared with null only.
    intro notNull absent
    rw [absent] at has
    cases sort : kinds slot with
    | boolean =>
      rw [sort] at has
      obtain ⟨truth, impossible⟩ := has
      cases truth <;> cases impossible
    | reference =>
      rw [sort] at may
      exact notNull may
  · intro state covers
    rw [asks]
    -- The slot may have been known to be otherwise: what is pinned now is true of the value,
    -- and that is all that covering asks for.
    by_cases equal : values slot = value
    · refine ⟨_, covers.set slot constraint (same equal) boolean, ?_⟩
      rw [if_pos equal]
      exact List.mem_cons_self
    · refine ⟨_, covers.set slot constraint.negate (other equal) ?_, ?_⟩
      · intro isBoolean
        obtain ⟨truth, rfl⟩ := boolean isBoolean
        exact ⟨!truth, Constraint.negate_ofBool truth⟩
      · rw [if_neg equal, ← Constraint.negate_ofBool]
        exact List.mem_cons_of_mem _ List.mem_cons_self

theorem Settles.paren {inner : Expr} {span : Span} {truth : Bool}
    (settles : inner.Settles params kinds maxStates values truth) :
    (Expr.paren inner span).Settles params kinds maxStates values truth where
  decides outcome after run := by
    cases run with
    | paren run => exact settles.decides outcome after run
    | unknown foreign => exact absurd .paren foreign
  covered states enough state member covers := by
    simp only [eval, heeded_of_le member enough, ite_true]
    exact settles.covered states enough state member covers

theorem Settles.not {operand : Expr} {span : Span} {truth : Bool}
    (settles : operand.Settles params kinds maxStates values truth) :
    (unary .not operand span).Settles params kinds maxStates values (!truth) where
  decides := settles.decides.not
  covered states enough state member covers := by
    obtain ⟨arguments, covers, found⟩ := settles.covered states enough state member covers
    refine ⟨arguments, covers, ?_⟩
    simp only [eval, heeded_of_le member enough, ite_true, Contract.mem_negated]
    rw [Constraint.negate_ofBool, Bool.not_not]
    refine ⟨?_, found⟩
    cases truth with
    | true => exact Or.inr rfl
    | false => exact Or.inl rfl

/-- A settled operand ends a chain, or hands on a state that covers the values. -/
theorem ChainSettles.of_operands (stop : Bool) (operands : List Expr)
    (each : ∀ operand ∈ operands, ∃ truth,
      operand.Settles params kinds maxStates values truth) :
    ∃ truth, ChainSettles params kinds maxStates values stop operands truth := by
  -- By induction on the operands: stop ends the chain, anything else hands a state on.
  induction operands with
  | nil =>
    refine ⟨!stop, ?_, ?_⟩
    · intro outcome after run
      cases run
      exact ⟨rfl, rfl⟩
    · intro live _ state member covers
      refine ⟨state, covers, ?_⟩
      rw [evalChain, Contract.mem_each, Constraint.negate_ofBool]
      exact ⟨member, rfl⟩
  | cons operand operands ih =>
    obtain ⟨truth, settles⟩ := each operand List.mem_cons_self
    by_cases stops : truth = stop
    · subst stops
      refine ⟨truth, ?_, ?_⟩
      · intro outcome after run
        exact settles.decides.chain_stop run
      · intro live enough state member covers
        obtain ⟨arguments, covers, found⟩ :=
          settles.covered live (room_of_le (Nat.le_add_right _ _) enough) state member covers
        refine ⟨arguments, covers, ?_⟩
        -- A contract with the result stop is final.
        simp only [evalChain, List.mem_append, List.mem_filter, found, beq_self_eq_true,
          true_and, true_or]
    · have goesOn : truth = !stop := Bool.eq_not.mpr stops
      subst goesOn
      obtain ⟨final, rest⟩ := ih fun other member => each other (List.mem_cons_of_mem _ member)
      refine ⟨final, ?_, ?_⟩
      · intro outcome after run
        exact rest.decides outcome after (settles.decides.chain_next run)
      · intro live enough state member covers
        obtain ⟨middle, handed, covers, left⟩ :=
          settles.hands enough member covers (usesAll params operands) (Nat.le_refl _)
        obtain ⟨arguments, covers, later⟩ := rest.covered _ left middle handed covers
        refine ⟨arguments, covers, ?_⟩
        -- The rest of the chain is evaluated after what this operand has stopped.
        rw [evalChain, Constraint.negate_ofBool]
        exact List.mem_append_right _ later

theorem Settles.chain {op : BinaryOp} {stop truth : Bool} (stops : op.stop? = some (.ofBool stop))
    {operands : List Expr} {span : Span}
    (settles : ChainSettles params kinds maxStates values stop operands truth) :
    (Expr.chain op operands span).Settles params kinds maxStates values truth where
  decides outcome after run := settles.decides outcome after (run.of_chain stops)
  covered states enough state member covers := by
    rw [eval_chain stops, if_pos (heeded_of_le member enough)]
    exact settles.covered states enough state member covers

theorem Settles.conditional {condition whenTrue whenFalse : Expr} {span : Span}
    {taken truth : Bool} (decides : condition.Settles params kinds maxStates values taken)
    (branch : (if taken then whenTrue else whenFalse).Settles params kinds maxStates values truth) :
    (Expr.conditional condition whenTrue whenFalse span).Settles params kinds maxStates values
      truth where
  decides outcome after run := branch.decides outcome after (decides.decides.conditional run)
  covered states enough state member covers := by
    simp only [eval, heeded_of_le member enough, ite_true, List.mem_append]
    -- The results of both branches are kept, so those of the branch taken are among them.
    cases taken with
    | true =>
      obtain ⟨middle, handed, covers, left⟩ := decides.hands enough member covers
        (whenTrue.uses params) (Nat.add_le_add_left (Nat.le_add_right _ _) _)
      obtain ⟨arguments, covers, later⟩ := branch.covered _ left middle handed covers
      exact ⟨arguments, covers, Or.inl later⟩
    | false =>
      obtain ⟨middle, handed, covers, left⟩ := decides.hands enough member covers
        (whenFalse.uses params) (Nat.add_le_add_left (Nat.le_add_left _ _) _)
      obtain ⟨arguments, covers, later⟩ := branch.covered _ left middle handed covers
      exact ⟨arguments, covers, Or.inr later⟩

/-- Every two-valued condition settles. -/
theorem IsCondition.settles {expr : Expr} (condition : expr.IsCondition params kinds)
    (typed : ∀ slot, (kinds slot).Has (values slot)) :
    ∃ truth, expr.Settles params kinds maxStates values truth := by
  -- By induction on the condition. Every leaf is decided by the kind of its parameter.
  induction condition with
  | @flag word span slot named boolean =>
    have has := typed slot
    rw [boolean] at has
    obtain ⟨truth, value⟩ := has
    exact ⟨truth, Settles.flag named boolean value⟩
  | literal truth =>
    rcases truth with rfl | rfl
    · exact ⟨true, Settles.literal rfl rfl⟩
    · exact ⟨false, Settles.literal rfl rfl⟩
  | comparison comparison compares may =>
    rcases comparison with rfl | rfl
    · exact ⟨_, Settles.comparison rfl compares may (typed _)⟩
    · exact ⟨_, Settles.comparison rfl compares may (typed _)⟩
  | paren _ ih =>
    obtain ⟨truth, settles⟩ := ih
    exact ⟨truth, settles.paren⟩
  | not _ ih =>
    obtain ⟨truth, settles⟩ := ih
    exact ⟨!truth, settles.not⟩
  | @chain op operands span logical _ _ ih =>
    rcases logical with rfl | rfl
    · obtain ⟨truth, settles⟩ := ChainSettles.of_operands false operands ih
      exact ⟨truth, Settles.chain rfl settles⟩
    · obtain ⟨truth, settles⟩ := ChainSettles.of_operands true operands ih
      exact ⟨truth, Settles.chain rfl settles⟩
  | conditional _ _ _ conditionIH firstIH secondIH =>
    obtain ⟨taken, decides⟩ := conditionIH
    cases taken with
    | true =>
      obtain ⟨truth, branch⟩ := firstIH
      exact ⟨truth, Settles.conditional decides branch⟩
    | false =>
      obtain ⟨truth, branch⟩ := secondIH
      exact ⟨truth, Settles.conditional decides branch⟩

end Expr

/-! ## Statements -/

namespace Stmt

variable {maxStates : Nat}

/-- The statement completes in one way only, and from a state that covers the
values a contract is inferred whose result says exactly how. -/
structure Settles (params : List String) (kinds : Nat → Kind) (maxStates : Nat) (values : Values)
    (stmt : Stmt) (completion : Completion) (result : Constraint) : Prop where
  ends : ∀ other after, stmt.Runs params values other after → other = completion
  exact : completion.result? = some result
  covered : ∀ states : List Arguments, states.length * 2 ^ stmt.uses params ≤ maxStates →
    ∀ state ∈ states, Covers params kinds values state →
      ∃ arguments, Covers params kinds values arguments ∧
        ⟨arguments, result⟩ ∈ (stmt.eval params (some maxStates) states).contracts

/-- The same for statements in order. -/
structure AllSettle (params : List String) (kinds : Nat → Kind) (maxStates : Nat)
    (values : Values) (stmts : List Stmt) (completion : Completion) (result : Constraint) :
    Prop where
  ends : ∀ other after, RunsAll params stmts values other after → other = completion
  exact : completion.result? = some result
  covered : ∀ states : List Arguments, states.length * 2 ^ usesAll params stmts ≤ maxStates →
    ∀ state ∈ states, Covers params kinds values state →
      ∃ arguments, Covers params kinds values arguments ∧
        ⟨arguments, result⟩ ∈ evalAll params (some maxStates) stmts states

theorem Settles.not_normal {stmt : Stmt} {completion : Completion} {result : Constraint}
    (settles : stmt.Settles params kinds maxStates values completion result) (middle : Values) :
    ¬stmt.Runs params values .normal middle := by
  intro run
  have exact := settles.exact
  -- A normal completion has no result.
  rw [← settles.ends _ _ run] at exact
  cases exact

private theorem result?_ofBool (truth : Bool) :
    Completion.result? (.returned (some (.ofBool truth))) = some (.ofBool truth) := by
  cases truth <;> rfl

theorem Settles.returns {value : Expr} {span : Span} {truth : Bool}
    (settles : value.Settles params kinds maxStates values truth) :
    (Stmt.returns (some value) span).Settles params kinds maxStates values
      (.returned (some (.ofBool truth))) (.ofBool truth) where
  ends other after run := by
    cases run with
    | returns run =>
      cases (settles.decides _ _ run).2
      rfl
    | returnsThrown run => cases (settles.decides _ _ run).2
    | unknown foreign => cases foreign
  exact := result?_ofBool truth
  covered states enough state member covers := settles.covered states enough state member covers

theorem Settles.returnsNull {text : String} {literalSpan span : Span} :
    (Stmt.returns (some (.literal .null text literalSpan)) span).Settles params kinds maxStates
      values (.returned (some .null)) .null where
  ends other after run := by
    cases run with
    | returns run =>
      cases (run.of_literal rfl).2
      rfl
    | returnsThrown run => cases (run.of_literal rfl).2
    | unknown foreign => cases foreign
  exact := rfl
  covered states enough state member covers := by
    refine ⟨state, covers, ?_⟩
    simp only [eval, Expr.eval, heeded_of_le member enough, ite_true]
    exact List.mem_flatMap.mpr ⟨state, member, List.mem_singleton_self _⟩

theorem Settles.throws {value : Expr} {span : Span} :
    (Stmt.throws value span).Settles params kinds maxStates values .thrown .fail where
  ends other after run := by
    cases run with
    | throws => rfl
    | unknown foreign => cases foreign
  exact := rfl
  covered states _ state member covers :=
    ⟨state, covers, (Contract.mem_each _ _ _).mpr ⟨member, rfl⟩⟩

theorem Settles.block {only : Stmt} {span : Span} {completion : Completion} {result : Constraint}
    (settles : only.Settles params kinds maxStates values completion result) :
    (Stmt.block [only] span).Settles params kinds maxStates values completion result where
  ends other after run := settles.ends other after (run.of_block.first settles.not_normal)
  exact := settles.exact
  covered states enough state member covers := settles.covered states enough state member covers

theorem Settles.ifTrue {condition : Expr} {whenTrue whenFalse : Stmt} {span : Span}
    {completion : Completion} {result : Constraint}
    (decides : condition.Settles params kinds maxStates values true)
    (settles : whenTrue.Settles params kinds maxStates values completion result) :
    (Stmt.ifElse condition whenTrue (some whenFalse) span).Settles params kinds maxStates values
      completion result where
  ends other after run := settles.ends other after (decides.decides.ifTrue run)
  exact := settles.exact
  covered states enough state member covers := by
    obtain ⟨middle, handed, covers, left⟩ := decides.hands enough member covers
      (whenTrue.uses params) (Nat.add_le_add_left (Nat.le_add_right _ _) _)
    obtain ⟨arguments, covers, later⟩ := settles.covered _ left middle handed covers
    exact ⟨arguments, covers, List.mem_append_left _ later⟩

theorem Settles.ifFalse {condition : Expr} {whenTrue whenFalse : Stmt} {span : Span}
    {completion : Completion} {result : Constraint}
    (decides : condition.Settles params kinds maxStates values false)
    (settles : whenFalse.Settles params kinds maxStates values completion result) :
    (Stmt.ifElse condition whenTrue (some whenFalse) span).Settles params kinds maxStates values
      completion result where
  ends other after run := settles.ends other after (decides.decides.ifFalse run)
  exact := settles.exact
  covered states enough state member covers := by
    obtain ⟨middle, handed, covers, left⟩ := decides.hands enough member covers
      (whenFalse.uses params) (Nat.add_le_add_left (Nat.le_add_left _ _) _)
    obtain ⟨arguments, covers, later⟩ := settles.covered _ left middle handed covers
    exact ⟨arguments, covers, List.mem_append_right _ later⟩

/-- Every exit settles, and nothing after it is reached. -/
theorem IsExit.settles {stmt : Stmt} (exit : stmt.IsExit params kinds)
    (typed : ∀ slot, (kinds slot).Has (values slot)) :
    ∃ completion result, stmt.Settles params kinds maxStates values completion result := by
  induction exit with
  | returns condition =>
    obtain ⟨truth, settles⟩ := condition.settles typed
    exact ⟨_, _, Settles.returns settles⟩
  | returnsNull => exact ⟨_, _, Settles.returnsNull⟩
  | throws => exact ⟨_, _, Settles.throws⟩
  | block _ ih =>
    obtain ⟨completion, result, settles⟩ := ih
    exact ⟨completion, result, settles.block⟩
  -- The test settles on one answer for these values, and the branch behind it has settled.
  | ifElse decides _ _ firstIH secondIH =>
    obtain ⟨truth, decides⟩ := decides.settles typed
    cases truth with
    | true =>
      obtain ⟨completion, result, settles⟩ := firstIH
      exact ⟨completion, result, Settles.ifTrue decides settles⟩
    | false =>
      obtain ⟨completion, result, settles⟩ := secondIH
      exact ⟨completion, result, Settles.ifFalse decides settles⟩

theorem IsExit.alwaysReturns {stmt : Stmt} (exit : stmt.IsExit params kinds) :
    stmt.alwaysReturns = true := by
  induction exit with
  | returns | returnsNull | throws => rfl
  | block _ ih => simp only [Stmt.alwaysReturns, anyReturns, ih, Bool.true_or]
  | ifElse _ _ _ firstIH secondIH =>
    simp only [Stmt.alwaysReturns, firstIH, secondIH, Bool.and_self]

theorem IsExit.not_guard {stmt : Stmt} (exit : stmt.IsExit params kinds) :
    stmt.isGuard = false := by
  cases exit <;> rfl

/-- A guard that is taken settles the statements from there on. -/
theorem AllSettle.taken {condition : Expr} {whenTrue : Stmt} {span : Span} {stmts : List Stmt}
    {completion : Completion} {result : Constraint}
    (decides : condition.Settles params kinds maxStates values true)
    (settles : whenTrue.Settles params kinds maxStates values completion result) :
    AllSettle params kinds maxStates values (.ifElse condition whenTrue none span :: stmts)
      completion result where
  ends other after run := by
    -- The branch does not complete normally, so what follows the guard is never run.
    have abrupt : ∀ middle, ¬(Stmt.ifElse condition whenTrue none span).Runs params values .normal
        middle := fun middle normal => settles.not_normal middle (decides.decides.ifTrue normal)
    exact settles.ends other after (decides.decides.ifTrue (run.first abrupt))
  exact := settles.exact
  covered states enough state member covers := by
    obtain ⟨middle, handed, covers, left⟩ := decides.hands enough member covers
      (whenTrue.uses params) (Nat.le_add_right _ _)
    obtain ⟨arguments, covers, later⟩ := settles.covered _ left middle handed covers
    refine ⟨arguments, covers, ?_⟩
    rw [evalAll_guard]
    exact List.mem_append_left _ later

/-- A guard that is passed leaves it to the statements after it. -/
theorem AllSettle.passed {condition : Expr} {whenTrue : Stmt} {span : Span} {stmts : List Stmt}
    {completion : Completion} {result : Constraint}
    (decides : condition.Settles params kinds maxStates values false)
    (returns : whenTrue.alwaysReturns = true)
    (rest : AllSettle params kinds maxStates values stmts completion result) :
    AllSettle params kinds maxStates values (.ifElse condition whenTrue none span :: stmts)
      completion result where
  ends other after run := rest.ends other after (decides.decides.guard run)
  exact := rest.exact
  covered states enough state member covers := by
    obtain ⟨middle, handed, covers, left⟩ := decides.hands enough member covers
      (usesAll params stmts) (Nat.add_le_add_right (Nat.le_add_right _ _) _)
    obtain ⟨arguments, covers, later⟩ := rest.covered _ left middle handed covers
    refine ⟨arguments, covers, ?_⟩
    -- The states with a false test are handed on as the branch cannot be fallen through.
    rw [evalAll_guard, if_pos returns]
    exact List.mem_append_right _ later

/-- An exit settles the statements from there on. -/
theorem AllSettle.exit {stmt : Stmt} {stmts : List Stmt} {completion : Completion}
    {result : Constraint} (last : stmt.isGuard = false)
    (settles : stmt.Settles params kinds maxStates values completion result) :
    AllSettle params kinds maxStates values (stmt :: stmts) completion result where
  ends other after run := settles.ends other after (run.first settles.not_normal)
  exact := settles.exact
  covered states enough state member covers := by
    rw [evalAll_last stmt stmts last]
    exact settles.covered states (room_of_le (Nat.le_add_right _ _) enough) state member covers

/-- Every two-valued body settles. -/
theorem IsTwoValued.settles {stmts : List Stmt} (body : IsTwoValued params kinds stmts)
    (typed : ∀ slot, (kinds slot).Has (values slot)) :
    ∃ completion result, AllSettle params kinds maxStates values stmts completion result := by
  -- By induction on the guards: each is taken, or leaves it to the rest.
  induction body with
  | exit exit =>
    obtain ⟨completion, result, settles⟩ := exit.settles typed
    exact ⟨completion, result, .exit exit.not_guard settles⟩
  | guard decides exit _ ih =>
    obtain ⟨truth, decides⟩ := decides.settles typed
    cases truth with
    | true =>
      obtain ⟨completion, result, settles⟩ := exit.settles typed
      exact ⟨completion, result, .taken decides settles⟩
    | false =>
      obtain ⟨completion, result, rest⟩ := ih
      exact ⟨completion, result, .passed decides exit.alwaysReturns rest⟩

end Stmt

/-- Nothing is known at first, so the first state covers all values. -/
theorem Covers.unknown {count : Nat} (enough : params.length ≤ count) :
    Covers params kinds values (Arguments.unknown count) where
  fit := by
    rw [Arguments.unknown, List.length_replicate]
    exact enough
  admits slot known found := by
    rw [Arguments.unknown, List.getElem?_replicate, Option.ite_none_right_eq_some] at found
    cases found.2
    rfl
  boolean slot known _ found := by
    rw [Arguments.unknown, List.getElem?_replicate, Option.ite_none_right_eq_some] at found
    cases found.2
    exact Or.inl rfl

end Tree

/-! ## Methods -/

/-- An object and `true`. -/
def Values.present (slot : Nat) : Value := if slot = 0 then .object 1 else .isTrue

end MethodContracts
