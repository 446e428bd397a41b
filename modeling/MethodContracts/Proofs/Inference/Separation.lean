import Mathlib.Data.List.Basic
import MethodContracts.Proofs.Body.Validity
import MethodContracts.Proofs.Inference.Agreement

/-!
# States do not interact

As long as no expression gets more states than the limit, what is evaluated under a list
of states is evaluated under each of them: up to order the contracts of two lists together
are those of the one and those of the other. Their order does change, since the results of
a part are handed on for all states before the next part is evaluated.
-/
namespace MethodContracts

/-! ## Runs that treat states apart -/

/-- A run under states that are two lists in some order has the contracts of both in some
order, provided that the states are spared, and then either list is spared too. -/
structure Separate (run : List Arguments → List Contract) (spared : List Arguments → Prop) :
    Prop where
  nil : run [] = []
  merge : ∀ {states first second : List Arguments}, states.Perm (first ++ second) →
    spared states → (run states).Perm (run first ++ run second) ∧ spared first

namespace Separate

variable {run next : List Arguments → List Contract} {spared further : List Arguments → Prop}

theorem congr (separate : Separate run spared) (sameRun : ∀ states, next states = run states)
    (same : ∀ states, further states ↔ spared states) : Separate next further := by
  obtain rfl : next = run := funext sameRun
  refine ⟨separate.nil, fun mixed enough => ?_⟩
  obtain ⟨merged, still⟩ := separate.merge mixed ((same _).mp enough)
  exact ⟨merged, (same _).mpr still⟩

/-- What is done with every state is done with it alone. -/
theorem each (yield : Arguments → List Contract) :
    Separate (fun states => states.flatMap yield) fun _ => True where
  nil := rfl
  merge mixed _ := by
    have yielded := mixed.flatMap_right yield
    rw [List.flatMap_append] at yielded
    exact ⟨yielded, trivial⟩

/-- One contract with this result for each state. -/
theorem constant (result : Constraint) :
    Separate (fun states => Contract.each states result) fun _ => True := by
  apply (each fun state => [⟨state, result⟩]).congr
  · intro states
    rw [Contract.each, List.map_eq_flatMap]
  · exact fun _ => Iff.rfl

theorem silent (nothing : ∀ states, run states = []) (always : ∀ states, spared states) :
    Separate run spared where
  nil := nothing []
  merge {states first second} _ _ := by
    rw [nothing states, nothing first, nothing second]
    exact ⟨List.Perm.refl _, always first⟩

theorem append (separate : Separate run spared) (also : Separate next further) :
    Separate (fun states => run states ++ next states)
      fun states => spared states ∧ further states where
  nil := by rw [separate.nil, also.nil, List.append_nil]
  merge := by
    intro states first second mixed enough
    obtain ⟨one, oneStill⟩ := separate.merge mixed enough.1
    obtain ⟨two, twoStill⟩ := also.merge mixed enough.2
    refine ⟨(one.append two).trans ?_, oneStill, twoStill⟩
    -- What the first list yields second comes before what the second yields first.
    have swapped := List.perm_append_comm_assoc (run second) (next first) (next second)
    simp only [List.append_assoc]
    exact swapped.append_left _

theorem filter (separate : Separate run spared) (kept : Contract → Bool) :
    Separate (fun states => (run states).filter kept) spared where
  nil := by rw [separate.nil, List.filter_nil]
  merge mixed enough := by
    obtain ⟨merged, still⟩ := separate.merge mixed enough
    rw [← List.filter_append]
    exact ⟨merged.filter kept, still⟩

theorem map (separate : Separate run spared) (change : Contract → Contract) :
    Separate (fun states => (run states).map change) spared where
  nil := by rw [separate.nil, List.map_nil]
  merge mixed enough := by
    obtain ⟨merged, still⟩ := separate.merge mixed enough
    rw [← List.map_append]
    exact ⟨merged.map change, still⟩

/-- States that are handed on come from their states apart. -/
theorem handOn (separate : Separate run spared) (result : Constraint)
    (rest : Separate next further) :
    Separate (fun states => next (Contract.argumentsWith result (run states)))
      fun states => spared states ∧ further (Contract.argumentsWith result (run states)) where
  nil := by
    rw [separate.nil]
    exact rest.nil
  merge := by
    intro states first second mixed enough
    obtain ⟨merged, still⟩ := separate.merge mixed enough.1
    -- What is handed on keeps the permutation, as it is a filter of the results.
    have handed : (Contract.argumentsWith result (run states)).Perm
        (Contract.argumentsWith result (run first) ++
          Contract.argumentsWith result (run second)) := by
      have found := (merged.filter (·.result == result)).map (·.arguments)
      rwa [List.filter_append, List.map_append] at found
    obtain ⟨later, laterStill⟩ := rest.merge handed enough.2
    exact ⟨later, still, laterStill⟩

/-- A limit that the states do not exceed changes nothing. -/
theorem limited (separate : Separate run spared) (most : Nat) :
    Separate (fun states => if Arguments.heeded (some most) states then run states else [])
      fun states => states.length ≤ most ∧ spared states where
  nil := rfl
  merge := by
    -- Without states there is nothing, whether the run is looked at or not.
    have whole (states : List Arguments) (few : states.length ≤ most) :
        (if Arguments.heeded (some most) states then run states else []) = run states := by
      cases states with
      | nil => exact separate.nil.symm
      | cons state states =>
        rw [if_pos]
        simp only [Arguments.heeded_some, List.isEmpty_cons, Bool.false_or, Bool.not_eq_true',
          decide_eq_false_iff_not, Nat.not_lt]
        exact few
    intro states first second mixed enough
    obtain ⟨few, enough⟩ := enough
    obtain ⟨merged, still⟩ := separate.merge mixed enough
    have counted := mixed.length_eq
    rw [List.length_append] at counted
    have fewFirst : first.length ≤ most := by omega
    have fewSecond : second.length ≤ most := by omega
    rw [whole states few, whole first fewFirst, whole second fewSecond]
    exact ⟨merged, fewFirst, still⟩

/-! ## What follows for lists of states -/

theorem permuted (separate : Separate run spared) {states others : List Arguments}
    (mixed : states.Perm others) (enough : spared states) : (run states).Perm (run others) := by
  rw [← List.append_nil others] at mixed
  have merged := (separate.merge mixed enough).1
  rwa [separate.nil, List.append_nil] at merged

theorem alone (separate : Separate run spared) (states : List Arguments)
    (enough : spared states) : (run states).Perm (states.flatMap fun state => run [state]) := by
  induction states with
  | nil =>
    rw [separate.nil]
    exact List.Perm.refl _
  | cons state states ih =>
    have merged := (separate.merge (List.Perm.refl ([state] ++ states)) enough).1
    -- The states behind are spared as well.
    have swapped : (state :: states).Perm (states ++ [state]) :=
      (List.perm_append_singleton state states).symm
    have still := (separate.merge swapped enough).2
    exact merged.trans ((ih still).append_left _)

end Separate

/-! ## Expressions -/

namespace Tree

variable (params : List String) (most : Nat)

namespace Expr

mutual

/-- Whether no expression that is evaluated gets more states than the limit. -/
def spared (expr : Expr) (states : List Arguments) : Bool :=
  decide (states.length ≤ most) &&
    match expr with
    | .chain op operands _ =>
      match op.stop? with
      | some stop => sparedChain stop operands states
      | none => true
    | .conditional condition whenTrue whenFalse _ =>
      let contracts := condition.eval params (some most) states
      condition.spared states && whenTrue.spared (Contract.argumentsWith .isTrue contracts) &&
        whenFalse.spared (Contract.argumentsWith .isFalse contracts)
    | .paren inner _ => inner.spared states
    | .unary .not operand _ => operand.spared states
    | _ => true

/-- The same for operands from left to right. -/
def sparedChain (stop : Constraint) : List Expr → List Arguments → Bool
  | [], _ => true
  | operand :: operands, live =>
    operand.spared live &&
      sparedChain stop operands
        (Contract.argumentsWith stop.negate (operand.eval params (some most) live))

end

variable {params most}

private theorem spared_atomic {expr : Expr} (atomic : expr.isAtomic = true)
    (states : List Arguments) : expr.spared params most states = decide (states.length ≤ most) := by
  cases expr with
  | chain op operands span =>
    simp only [isAtomic, Option.isNone_iff_eq_none] at atomic
    simp only [spared, atomic, Bool.and_true]
  | conditional | paren => simp [isAtomic] at atomic
  | unary op operand span =>
    cases op with
    | not => simp [isAtomic] at atomic
    | _ => simp only [spared, Bool.and_true]
  | _ => simp only [spared, Bool.and_true]

private theorem evalChain_separate (stop : Constraint) (operands : List Expr)
    (each : ∀ operand ∈ operands, Separate (operand.eval params (some most))
      fun states => operand.spared params most states = true) :
    Separate (evalChain params (some most) stop operands)
      fun live => sparedChain params most stop operands live = true := by
  induction operands with
  | nil =>
    apply (Separate.constant stop.negate).congr
    · intro live
      rw [evalChain]
    · simp only [sparedChain, implies_true]
  | cons operand operands ih =>
    -- What an operand stops is kept, and its other states go on.
    have here := each operand List.mem_cons_self
    have rest := ih fun other found => each other (List.mem_cons_of_mem _ found)
    apply ((here.filter (·.result == stop)).append (here.handOn stop.negate rest)).congr
    · intro live
      rw [evalChain]
    · intro live
      simp only [sparedChain, Bool.and_eq_true, and_self_left]

/-- States do not interact in an expression. -/
theorem eval_separate (params : List String) (most : Nat) (expr : Expr) :
    Separate (expr.eval params (some most))
      fun states => expr.spared params most states = true := by
  induction expr using byShape with
  | chain op stop operands span stops ih =>
    apply ((evalChain_separate stop operands ih).limited most).congr
    · intro states
      rw [eval_chain stops]
    · simp only [spared, stops, Bool.and_eq_true, decide_eq_true_eq, implies_true]
  | conditional condition whenTrue whenFalse span conditionIH trueIH falseIH =>
    have branches := (conditionIH.handOn .isTrue trueIH).append
      (conditionIH.handOn .isFalse falseIH)
    apply (branches.limited most).congr
    · intro states
      rw [eval]
    · intro states
      simp only [spared, Bool.and_eq_true, decide_eq_true_eq]
      grind
  | paren inner span ih =>
    apply (ih.limited most).congr
    · intro states
      rw [eval]
    · simp only [spared, Bool.and_eq_true, decide_eq_true_eq, implies_true]
  | not operand span ih =>
    apply (((ih.filter _).map _).limited most).congr
    · intro states
      rw [eval, Contract.negated]
    · simp only [spared, Bool.and_eq_true, decide_eq_true_eq, implies_true]
  | atomic expr isAtomic =>
    apply ((Separate.each fun state => (expr.atom params).yield state).limited most).congr
    · intro states
      rw [eval_atomic isAtomic]
    · simp only [spared_atomic isAtomic, decide_eq_true_eq, and_true, implies_true]

end Expr

namespace Stmt

/-- Whether no expression that is evaluated gets more states than the limit. -/
def spared : Stmt → List Arguments → Bool
  | .block [only] _, states => only.spared states
  | .ifElse condition whenTrue (some whenFalse) _, states =>
    let results := condition.eval params (some most) states
    condition.spared params most states &&
      whenTrue.spared (Contract.argumentsWith .isTrue results) &&
      whenFalse.spared (Contract.argumentsWith .isFalse results)
  | .ifElse condition whenTrue none _, states =>
    condition.spared params most states &&
      whenTrue.spared
        (Contract.argumentsWith .isTrue (condition.eval params (some most) states))
  | .returns (some value) _, states => value.spared params most states
  | .assert condition _ _, states => condition.spared params most states
  | _, _ => true

/-- The same for statements in order, as far as their states are known. -/
def allSpared : List Stmt → List Arguments → Bool
  | [], _ => true
  | stmt :: stmts, states =>
    stmt.spared params most states &&
      match (stmt.eval params (some most) states).next with
      | none => true
      | some live => allSpared stmts live

variable {params most}

private theorem allSpared_guard (condition : Expr) (whenTrue : Stmt) (span : Span)
    (stmts : List Stmt) (states : List Arguments) :
    allSpared params most (.ifElse condition whenTrue none span :: stmts) states =
      (condition.spared params most states &&
        whenTrue.spared params most
          (Contract.argumentsWith .isTrue (condition.eval params (some most) states)) &&
        (!whenTrue.alwaysReturns || allSpared params most stmts
          (Contract.argumentsWith .isFalse (condition.eval params (some most) states)))) := by
  simp only [allSpared, spared, eval]
  cases whenTrue.alwaysReturns <;> simp

private theorem allSpared_last (stmt : Stmt) (stmts : List Stmt) (last : stmt.isGuard = false)
    (states : List Arguments) :
    allSpared params most (stmt :: stmts) states = stmt.spared params most states := by
  cases next : (stmt.eval params (some most) states).next with
  | none => simp only [allSpared, next, Bool.and_true]
  | some live =>
    -- Only a guard hands states on.
    obtain ⟨_, _, _, rfl, _⟩ := next_eq_some stmt states live next
    cases last

/-- States do not interact in a statement. -/
theorem eval_separate (params : List String) (most : Nat) (stmt : Stmt) :
    Separate (fun states => (stmt.eval params (some most) states).contracts)
      fun states => stmt.spared params most states = true := by
  induction stmt using byChildren with
  | step stmt ih =>
    cases stmt with
    | block statements span =>
      match statements with
      | [] | _ :: _ :: _ => exact Separate.silent (fun _ => rfl) fun _ => rfl
      | [only] => exact ih only List.mem_cons_self
    | ifElse condition whenTrue whenFalse span =>
      have first := (condition.eval_separate params most).handOn .isTrue
        (ih whenTrue List.mem_cons_self)
      cases whenFalse with
      | none =>
        apply first.congr
        · intro states
          rw [eval]
        · simp only [spared, Bool.and_eq_true, implies_true]
      | some whenFalse =>
        have second := (condition.eval_separate params most).handOn .isFalse
          (ih whenFalse (by simp [children]))
        apply (first.append second).congr
        · intro states
          rw [eval]
        · intro states
          simp only [spared, Bool.and_eq_true]
          grind
    | throws value span =>
      apply (Separate.constant .fail).congr
      · intro states
        rw [eval]
      · simp only [spared, implies_true]
    | returns value span =>
      cases value with
      | none => exact Separate.silent (fun _ => rfl) fun _ => rfl
      | some value => exact value.eval_separate params most
    | assert condition message span =>
      -- Contracts are yielded for the states under which the condition fails.
      apply ((condition.eval_separate params most).handOn .isFalse (Separate.constant .fail)).congr
      · intro states
        rw [eval]
      · simp only [spared, and_true, implies_true]
    | _ => exact Separate.silent (fun _ => rfl) fun _ => rfl

/-- States do not interact in statements. -/
theorem evalAll_separate (params : List String) (most : Nat) (stmts : List Stmt) :
    Separate (evalAll params (some most) stmts)
      fun states => allSpared params most stmts states = true := by
  induction stmts using byGuards with
  | nil => exact Separate.silent (fun _ => rfl) fun _ => rfl
  | guard condition whenTrue span stmts ih =>
    have taken := (condition.eval_separate params most).handOn .isTrue
      (whenTrue.eval_separate params most)
    -- Only a branch that always returns lets the states with a false test go on.
    cases returns : whenTrue.alwaysReturns with
    | false =>
      apply taken.congr
      · intro states
        simp only [evalAll_guard, returns, Bool.false_eq_true, ite_false, List.append_nil]
      · simp only [allSpared_guard, returns, Bool.and_eq_true, Bool.not_false, Bool.true_or,
          and_true, implies_true]
    | true =>
      have past := (condition.eval_separate params most).handOn .isFalse ih
      apply (taken.append past).congr
      · intro states
        simp only [evalAll_guard, returns, ite_true]
      · intro states
        simp only [allSpared_guard, returns, Bool.and_eq_true, Bool.not_true, Bool.false_or]
        grind
  | last stmt stmts isLast =>
    apply (stmt.eval_separate params most).congr
    · intro states
      rw [evalAll_last stmt stmts isLast]
    · simp only [allSpared_last stmt stmts isLast, implies_true]

end Stmt

end Tree

/-! ## The interpreter -/

/-- Runs under lists of states that are spared do not let the states interact. -/
structure Interpreter.Separates (run : List Arguments → Except Fault (List Contract))
    (fits spared : List Arguments → Prop) : Prop where
  returns : ∀ states, fits states → ∃ contracts, run states = .ok contracts
  /-- Two lists together have the contracts of the one and of the other. -/
  append : ∀ first second, spared (first ++ second) → ∀ whole before after,
    run (first ++ second) = .ok whole → run first = .ok before → run second = .ok after →
      whole.Perm (before ++ after)
  /-- A list has the contracts that each of its states has alone. -/
  alone : ∀ states, spared states → ∀ whole (each : Arguments → List Contract),
    run states = .ok whole → (∀ state ∈ states, run [state] = .ok (each state)) →
      whole.Perm (states.flatMap each)
  /-- The order of the states is no more than the order of the contracts. -/
  permuted : ∀ states others, states.Perm others → spared states → ∀ contracts moved,
    run states = .ok contracts → run others = .ok moved → contracts.Perm moved

/-- What agrees with a run that treats states apart lets no states interact. -/
theorem Separate.separates {yields : List Arguments → List Contract}
    {spared fits : List Arguments → Prop} (separate : Separate yields spared)
    {run : List Arguments → Except Fault (List Contract)}
    (agrees : ∀ states, Agrees (fits states) (run states) (yields states)) :
    Interpreter.Separates run fits spared where
  returns states fit := ⟨_, (agrees states).eq_ok fit⟩
  append first second enough whole before after all one two := by
    rw [(agrees _).eq_value all, (agrees _).eq_value one, (agrees _).eq_value two]
    exact (separate.merge (List.Perm.refl _) enough).1
  alone states enough whole each all one := by
    rw [(agrees _).eq_value all]
    have same : states.flatMap each = states.flatMap fun state => yields [state] :=
      List.flatMap_congr fun state member => (agrees _).eq_value (one state member)
    rw [same]
    exact separate.alone states enough
  permuted states others mixed enough contracts moved all other := by
    rw [(agrees _).eq_value all, (agrees _).eq_value other]
    exact separate.permuted mixed enough

namespace Interpreter

/-- States do not interact in a valid body. As long as no expression that is evaluated gets
more states than the limit, the contracts of states are those of their parts, up to order. -/
theorem eval_separates (i : Interpreter) (accepted : i.body.validate = .ok ()) :
    (∀ id : ExprId, id.index < i.body.exprs.size →
      Separates (fun states => i.evalExpr states id) (Fit i.params) fun states =>
        (i.body.exprTree id).spared i.params i.maxStates states = true) ∧
    ∀ ids : List StmtId, (∀ id ∈ ids, id.index < i.body.stmts.size) →
      Separates (fun states => i.evalStmts states ids) (Fit i.params) fun states =>
        Tree.Stmt.allSpared i.params i.maxStates (ids.map i.body.stmtTree) states = true := by
  have valid := i.body.valid_of_validate accepted
  constructor
  · intro id inside
    exact ((i.body.exprTree id).eval_separate _ _).separates (i.evalExpr_agrees valid id inside)
  · intro ids inside
    exact (Tree.Stmt.evalAll_separate _ _ _).separates (i.evalStmts_agrees valid ids inside)

/-- The body `if (x == null) throw x; return y ? z : !z;` under a limit of two states. -/
def interleaved : Interpreter where
  body := {
    root := ⟨3⟩
    stmts := #[.throws ⟨0⟩ ⟨15, 23⟩, .ifElse ⟨2⟩ ⟨0⟩ none ⟨0, 23⟩, .returns (some ⟨6⟩) ⟨24, 42⟩,
      .block [⟨1⟩, ⟨2⟩] ⟨0, 42⟩]
    exprs := #[.name "x" ⟨4, 5⟩, .literal .null "null" ⟨9, 13⟩, .chain .equal [⟨0⟩, ⟨1⟩] ⟨4, 13⟩,
      .name "y" ⟨31, 32⟩, .name "z" ⟨35, 36⟩, .unary .not ⟨4⟩ ⟨39, 41⟩,
      .conditional ⟨3⟩ ⟨4⟩ ⟨5⟩ ⟨31, 41⟩] }
  params := ["x", "y", "z"]
  maxStates := 2

/-- The contracts of two states are not in the order of the states: the second state
comes before what the first yields last. -/
theorem eval_separates_interleaved :
    interleaved.body.validate = .ok () ∧
      Tree.Stmt.allSpared interleaved.params 2 ([⟨1⟩, ⟨2⟩].map interleaved.body.stmtTree)
        [[.any, .any, .isTrue], [.any, .isTrue, .null]] = true ∧
      ∃ whole before after : List Contract,
        interleaved.evalStmts [[.any, .any, .isTrue], [.any, .isTrue, .null]] [⟨1⟩, ⟨2⟩] =
          .ok whole ∧
        interleaved.evalStmts [[.any, .any, .isTrue]] [⟨1⟩, ⟨2⟩] = .ok before ∧
        interleaved.evalStmts [[.any, .isTrue, .null]] [⟨1⟩, ⟨2⟩] = .ok after ∧
        whole ≠ before ++ after ∧ whole.Perm (before ++ after) := by
  have separates := (eval_separates interleaved rfl).2 [⟨1⟩, ⟨2⟩] (by decide)
  have spared : Tree.Stmt.allSpared interleaved.params 2
      ([⟨1⟩, ⟨2⟩].map interleaved.body.stmtTree)
      [[.any, .any, .isTrue], [.any, .isTrue, .null]] = true := by decide
  exact ⟨rfl, spared, _, _, _, rfl, rfl, rfl, by decide,
    separates.append [_] [_] spared _ _ _ rfl rfl rfl⟩

end Interpreter

end MethodContracts
