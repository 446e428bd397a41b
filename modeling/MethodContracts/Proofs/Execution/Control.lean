import MethodContracts.Proofs.Execution.Basic
import MethodContracts.Proofs.Inference.Branching

/-!
# Control flow past a guard

Blocks, `if`, `return` and `throw` direct control; conditions and all other statements may do
anything. However they behave, a statement that always returns never completes normally, and
this describes it: any other statement does complete normally for some behaviour. Past a guard
whose branch always returns only those executions go on for which its condition is false, and
so no way to the next statement is lost with the states under which the condition is true.
-/
namespace MethodContracts

variable {State : Type}

/-- What the parts of a body do whose meaning is left open. -/
structure Behaviour (State : Type) where
  /-- From the first state the condition may have this truth value and leave the second. -/
  decides : ExprId → State → Bool → State → Prop
  /-- The condition may throw instead. -/
  fails : ExprId → State → State → Prop
  /-- The statement may complete so. -/
  completes : StmtId → State → Completion → State → Prop

/-- Everything may happen. -/
def Behaviour.free : Behaviour Unit where
  decides _ _ _ _ := True
  fails _ _ _ := True
  completes _ _ _ _ := True

/-- What a statement does is left open: it may complete in any way. -/
def Stmt.isOpen : Stmt → Bool
  | .block _ _ | .ifElse _ _ _ _ | .throws _ _ | .returns _ _ => false
  | .assert _ _ _ | .while _ _ _ | .local _ _ _ | .expr _ _ | .skipped _ _ | .empty _ => true

namespace Tree.Stmt

private theorem anyReturns_iff (stmts : List Stmt) :
    anyReturns stmts = true ↔ ∃ stmt ∈ stmts, stmt.alwaysReturns = true := by
  induction stmts with
  | nil => simp [anyReturns]
  | cons stmt stmts ih => simp [anyReturns, ih]

end Tree.Stmt

namespace Body

mutual

/-- `Runs body behaviour id before completion after`: from the first state the statement may
complete so, and leave the second. -/
inductive Runs (body : Body) (behaviour : Behaviour State) :
    StmtId → State → Completion → State → Prop where
  | stmt {id stmt before completion after} (found : body.stmt? id = some stmt)
    (run : RunsNode body behaviour id stmt before completion after) :
    Runs body behaviour id before completion after

/-- The same for what a reference refers to. -/
inductive RunsNode (body : Body) (behaviour : Behaviour State) :
    StmtId → Stmt → State → Completion → State → Prop where
  | returns {id value span before completion after} (abrupt : completion ≠ .normal)
    (completes : behaviour.completes id before completion after) :
    RunsNode body behaviour id (.returns value span) before completion after
  | throws {id value span before completion after} (abrupt : completion ≠ .normal)
    (completes : behaviour.completes id before completion after) :
    RunsNode body behaviour id (.throws value span) before completion after
  | block {id statements span before completion after}
    (run : RunsAll body behaviour statements before completion after) :
    RunsNode body behaviour id (.block statements span) before completion after
  | ifTrue {id condition whenTrue whenFalse span before middle completion after}
    (decides : behaviour.decides condition before true middle)
    (run : Runs body behaviour whenTrue middle completion after) :
    RunsNode body behaviour id (.ifElse condition whenTrue whenFalse span) before completion after
  | ifFalse {id condition whenTrue whenFalse span before middle completion after}
    (decides : behaviour.decides condition before false middle)
    (run : Runs body behaviour whenFalse middle completion after) :
    RunsNode body behaviour id (.ifElse condition whenTrue (some whenFalse) span) before
      completion after
  | ifSkipped {id condition whenTrue span before after}
    (decides : behaviour.decides condition before false after) :
    RunsNode body behaviour id (.ifElse condition whenTrue none span) before .normal after
  | ifFails {id condition whenTrue whenFalse span before after}
    (fails : behaviour.fails condition before after) :
    RunsNode body behaviour id (.ifElse condition whenTrue whenFalse span) before .thrown after
  | unknown {id stmt before completion after} (isOpen : stmt.isOpen = true)
    (completes : behaviour.completes id before completion after) :
    RunsNode body behaviour id stmt before completion after

/-- Statements in order, until one does not complete normally. -/
inductive RunsAll (body : Body) (behaviour : Behaviour State) :
    List StmtId → State → Completion → State → Prop where
  | none {state} : RunsAll body behaviour [] state .normal state
  | next {id ids before middle completion after}
    (first : Runs body behaviour id before .normal middle)
    (rest : RunsAll body behaviour ids middle completion after) :
    RunsAll body behaviour (id :: ids) before completion after
  | stop {id ids before completion after} (run : Runs body behaviour id before completion after)
    (abrupt : completion ≠ .normal) : RunsAll body behaviour (id :: ids) before completion after

end

variable {body : Body} {behaviour : Behaviour State} {before after : State}

/-- What is at a place runs as the statement that is there. -/
theorem Runs.node {id : StmtId} {stmt : Stmt} {completion : Completion}
    (run : body.Runs behaviour id before completion after) (found : body.stmt? id = some stmt) :
    body.RunsNode behaviour id stmt before completion after := by
  obtain ⟨same, run⟩ := run
  rw [found] at same
  cases same
  exact run

/-- Only if all of them complete normally do statements in order. -/
theorem RunsAll.each {ids : List StmtId} (run : body.RunsAll behaviour ids before .normal after)
    {id : StmtId} (member : id ∈ ids) :
    ∃ start stop, body.Runs behaviour id start .normal stop := by
  induction ids generalizing before with
  | nil => cases member
  | cons first ids ih =>
    cases run with
    | stop run abrupt => exact absurd rfl abrupt
    | next run rest =>
      rcases List.mem_cons.mp member with rfl | later
      · exact ⟨_, _, run⟩
      · exact ih rest later

theorem RunsAll.of_each {ids : List StmtId}
    (each : ∀ id ∈ ids, body.Runs behaviour id before .normal before) :
    body.RunsAll behaviour ids before .normal before := by
  induction ids with
  | nil => exact .none
  | cons id ids ih =>
    have later := ih fun other member => each other (List.mem_cons_of_mem _ member)
    exact .next (each id List.mem_cons_self) later

/-! ## Which statements always return -/

section Returns

variable (valid : body.Valid) {id : StmtId}
include valid

private theorem alwaysReturns_block {statements : List StmtId} {span : Span}
    (found : body.stmt? id = some (.block statements span)) :
    (body.stmtTree id).alwaysReturns = true ↔
      ∃ child ∈ statements, (body.stmtTree child).alwaysReturns = true := by
  rw [body.stmtTree_eq valid id _ found, Stmt.toTree, Tree.Stmt.alwaysReturns,
    Tree.Stmt.anyReturns_iff]
  constructor
  · rintro ⟨_, member, returns⟩
    obtain ⟨child, inside, rfl⟩ := List.mem_map.mp member
    exact ⟨child, inside, returns⟩
  · rintro ⟨child, inside, returns⟩
    exact ⟨_, List.mem_map_of_mem inside, returns⟩

private theorem alwaysReturns_ifElse {condition : ExprId} {whenTrue whenFalse : StmtId}
    {span : Span}
    (found : body.stmt? id = some (.ifElse condition whenTrue (some whenFalse) span)) :
    (body.stmtTree id).alwaysReturns = true ↔
      (body.stmtTree whenTrue).alwaysReturns = true ∧
        (body.stmtTree whenFalse).alwaysReturns = true := by
  rw [body.stmtTree_eq valid id _ found, Stmt.toTree, Option.map_some, Tree.Stmt.alwaysReturns,
    Bool.and_eq_true]

private theorem alwaysReturns_guard {condition : ExprId} {whenTrue : StmtId} {span : Span}
    (found : body.stmt? id = some (.ifElse condition whenTrue none span)) :
    (body.stmtTree id).alwaysReturns = false := by
  rw [body.stmtTree_eq valid id _ found]
  rfl

private theorem alwaysReturns_open {stmt : Stmt} (found : body.stmt? id = some stmt)
    (isOpen : stmt.isOpen = true) : (body.stmtTree id).alwaysReturns = false := by
  rw [body.stmtTree_eq valid id _ found]
  cases stmt with
  | block | ifElse | throws | returns => cases isOpen
  | _ => rfl

/-! ## Completing normally -/

/-- A statement that always returns does not complete normally, whatever the rest does. -/
theorem not_runs_normal (behaviour : Behaviour State) (id : StmtId)
    (inside : id.index < body.stmts.size) (always : (body.stmtTree id).alwaysReturns = true)
    (before after : State) : ¬body.Runs behaviour id before .normal after := by
  -- The induction follows references, which lead to earlier places in a validated body.
  refine Body.stmts_induction valid (motive := fun id => (body.stmtTree id).alwaysReturns = true →
    ∀ before after, ¬body.Runs behaviour id before .normal after) ?_ id inside always before after
  intro id stmt found each always before after run
  have node := run.node found
  cases node with
  | returns abrupt | throws abrupt => exact abrupt rfl
  | block run =>
    -- Whichever statement of a block always returns, the block does not get past it.
    obtain ⟨child, member, returns⟩ := (alwaysReturns_block valid found).mp always
    obtain ⟨start, stop, normal⟩ := run.each member
    exact each child member returns start stop normal
  | @ifTrue _ condition whenTrue whenFalse span _ middle _ _ decides run =>
    cases whenFalse with
    | none => simp [alwaysReturns_guard valid found] at always
    | some whenFalse =>
      have first := ((alwaysReturns_ifElse valid found).mp always).1
      exact each whenTrue List.mem_cons_self first middle after run
  | @ifFalse _ condition whenTrue whenFalse span _ middle _ _ decides run =>
    have second := ((alwaysReturns_ifElse valid found).mp always).2
    exact each whenFalse (by simp [Stmt.childStmts]) second middle after run
  | ifSkipped => simp [alwaysReturns_guard valid found] at always
  | unknown isOpen => simp [alwaysReturns_open valid found isOpen] at always

end Returns

/-- Any other statement completes normally if everything may happen. -/
theorem runs_normal (valid : body.Valid) (id : StmtId) (inside : id.index < body.stmts.size)
    (notAlways : (body.stmtTree id).alwaysReturns = false) :
    body.Runs .free id () .normal () := by
  refine Body.stmts_induction valid (motive := fun id => (body.stmtTree id).alwaysReturns = false →
    body.Runs .free id () .normal ()) ?_ id inside notAlways
  intro id stmt found each notAlways
  apply Runs.stmt found
  cases stmt with
  | block statements span =>
    have none : ¬∃ child ∈ statements, (body.stmtTree child).alwaysReturns = true := by
      rw [← alwaysReturns_block valid found, notAlways]
      exact Bool.false_ne_true
    refine .block (RunsAll.of_each fun child member => each child member ?_)
    rw [Bool.eq_false_iff]
    exact fun returns => none ⟨child, member, returns⟩
  | ifElse condition whenTrue whenFalse span =>
    cases whenFalse with
    | none => exact .ifSkipped trivial
    | some whenFalse =>
      -- One of the branches does not always return, and it may be taken.
      have notBoth := mt (alwaysReturns_ifElse valid found).mpr (Bool.eq_false_iff.mp notAlways)
      by_cases first : (body.stmtTree whenTrue).alwaysReturns = true
      · have second : (body.stmtTree whenFalse).alwaysReturns = false :=
          Bool.eq_false_iff.mpr fun second => notBoth ⟨first, second⟩
        exact .ifFalse trivial (each whenFalse (by simp [Stmt.childStmts]) second)
      · have run := each whenTrue List.mem_cons_self (Bool.eq_false_iff.mpr first)
        exact .ifTrue trivial run
  | returns | throws =>
    rw [body.stmtTree_eq valid id _ found] at notAlways
    cases notAlways
  | _ => exact .unknown rfl trivial

/-! ## Guards -/

section Guard

variable {guard : StmtId} {condition : ExprId} {whenTrue : StmtId} {span : Span}
  (valid : body.Valid) (found : body.stmt? guard = some (.ifElse condition whenTrue none span))
  (returns : (body.stmtTree whenTrue).alwaysReturns = true)
include valid found returns

/-- Past a guard whose branch always returns control goes where its condition is false. -/
private theorem runs_guard_normal (before after : State) :
    body.Runs behaviour guard before .normal after ↔
      behaviour.decides condition before false after := by
  have earlier := valid.stmt_lt guard.index _ found whenTrue List.mem_cons_self
  have inside : whenTrue.index < body.stmts.size :=
    Nat.lt_trans earlier (body.lt_of_stmt? guard _ found)
  constructor
  · intro run
    cases run.node found with
    -- A branch that always returns never ends normally.
    | ifTrue decides run =>
      exact absurd run (body.not_runs_normal valid behaviour whenTrue inside returns _ after)
    | ifSkipped decides => exact decides
    | unknown isOpen => cases isOpen
  · intro decides
    exact .stmt found (.ifSkipped decides)

/-- What runs from the guard on either ends in the guard, or is decided to be false there and
goes on with the next statement. -/
theorem runsAll_guard (rest : List StmtId) (before after : State) (completion : Completion) :
    body.RunsAll behaviour (guard :: rest) before completion after ↔
      (completion ≠ .normal ∧ body.Runs behaviour guard before completion after) ∨
        ∃ middle, behaviour.decides condition before false middle ∧
          body.RunsAll behaviour rest middle completion after := by
  constructor
  · intro run
    cases run with
    | next first rest =>
      exact .inr ⟨_, (runs_guard_normal valid found returns _ _).mp first, rest⟩
    | stop run abrupt => exact .inl ⟨abrupt, run⟩
  · rintro (⟨abrupt, run⟩ | ⟨middle, decides, run⟩)
    · exact .stop run abrupt
    · exact .next ((runs_guard_normal valid found returns _ _).mpr decides) run

end Guard

end Body

namespace Interpreter

/-- For each truth value that the condition may have where one of the states holds, there is a
contract with this result that holds afterwards. -/
def Exhausts (Holds : Arguments → State → Prop) (behaviour : Behaviour State) (condition : ExprId)
    (states : List Arguments) (results : List Contract) : Prop :=
  ∀ state ∈ states, ∀ before, Holds state before →
    ∀ truth after, behaviour.decides condition before truth after →
      ∃ contract ∈ results, contract.result = .ofBool truth ∧ Holds contract.arguments after

/-- A statement always returns exactly if it does not complete normally, however conditions and
other statements behave. Past a guard with such a branch the rest is evaluated under the states
with which the condition is false; an execution ends in the guard or goes on with the rest
where the condition was false, and there one of these states holds. -/
theorem alwaysReturns_sound (i : Interpreter) (accepted : i.body.validate = .ok ()) :
    (∀ id : StmtId, id.index < i.body.stmts.size →
      (i.alwaysReturns id = .ok true ↔
        ∀ (State : Type) (behaviour : Behaviour State) (before after : State),
          ¬i.body.Runs behaviour id before .normal after)) ∧
    ∀ (guard : StmtId) (condition : ExprId) (whenTrue : StmtId) (span : Span),
      i.body.stmt? guard = some (.ifElse condition whenTrue none span) →
      i.alwaysReturns whenTrue = .ok true →
        ∀ rest : List StmtId, (∀ id ∈ rest, id.index < i.body.stmts.size) →
        ∀ (states : List Arguments) (results : List Contract),
          i.evalExpr states condition = .ok results →
            i.evalStmts states (guard :: rest) = (do
              let first ← i.evalStmts (Contract.argumentsWith .isTrue results) [whenTrue]
              let others ← i.evalStmts (Contract.argumentsWith .isFalse results) rest
              return first ++ others) ∧
            ∀ (State : Type) (behaviour : Behaviour State) (Holds : Arguments → State → Prop),
              Exhausts Holds behaviour condition states results →
              ∀ (before after : State) (completion : Completion),
                (∃ state ∈ states, Holds state before) →
                i.body.RunsAll behaviour (guard :: rest) before completion after →
                  (completion ≠ .normal ∧ i.body.Runs behaviour guard before completion after) ∨
                  ∃ middle,
                    (∃ state ∈ Contract.argumentsWith .isFalse results, Holds state middle) ∧
                    i.body.RunsAll behaviour rest middle completion after := by
  have valid := i.body.valid_of_validate accepted
  refine ⟨fun id inside => ?_, ?_⟩
  · rw [i.alwaysReturns_eq valid id inside]
    constructor
    · intro always State behaviour before after
      exact Body.not_runs_normal valid behaviour id inside (Except.ok.inj always) before after
    · -- A statement that can fall through does so under the behaviour that allows everything.
      intro never
      cases returns : (i.body.stmtTree id).alwaysReturns with
      | true => rfl
      | false =>
        exact absurd (Body.runs_normal valid id inside returns) (never Unit .free () ())
  · intro guard condition whenTrue span found returns rest inside states results evaluated
    constructor
    · rw [i.evalStmts_guard valid found returns rest inside, evaluated]
      rfl
    · intro State behaviour Holds exhausts before after completion ⟨state, member, holds⟩ run
      have always := i.alwaysReturns_stmtTree valid found returns
      obtain ended | ⟨middle, decides, run⟩ :=
        (Body.runsAll_guard valid found always rest before after completion).mp run
      · exact .inl ended
      · obtain ⟨contract, listed, isFalse, stillHolds⟩ :=
          exhausts state member before holds false middle decides
        have handed : contract.arguments ∈ Contract.argumentsWith .isFalse results := by
          rw [Contract.mem_argumentsWith, ← Constraint.ofBool, ← isFalse]
          exact listed
        exact .inr ⟨middle, ⟨_, handed, stillHolds⟩, run⟩

end Interpreter

/-- The body `{ if (x == null) { log(); throw e; log(); } return true; }`. -/
def Body.thrownPast : Body where
  root := ⟨6⟩
  stmts := #[.expr ⟨4⟩ ⟨19, 25⟩, .throws ⟨5⟩ ⟨26, 34⟩, .expr ⟨7⟩ ⟨35, 41⟩,
    .block [⟨0⟩, ⟨1⟩, ⟨2⟩] ⟨17, 43⟩, .ifElse ⟨2⟩ ⟨3⟩ none ⟨2, 43⟩, .returns (some ⟨8⟩) ⟨44, 56⟩,
    .block [⟨4⟩, ⟨5⟩] ⟨0, 58⟩]
  exprs := #[.name "x" ⟨6, 7⟩, .literal .null "null" ⟨11, 15⟩, .chain .equal [⟨0⟩, ⟨1⟩] ⟨6, 15⟩,
    .name "log" ⟨19, 22⟩, .call ⟨3⟩ [] ⟨19, 24⟩, .name "e" ⟨32, 33⟩, .name "log" ⟨35, 38⟩,
    .call ⟨6⟩ [] ⟨35, 40⟩, .literal .isTrue "true" ⟨51, 55⟩]

def Interpreter.thrownPast : Interpreter := ⟨.thrownPast, ["x"], 2⟩

/-- Conditions ask whether the first argument is null, and statements may do anything. -/
def Behaviour.asksNull : Behaviour Values where
  decides _ before truth after := after = before ∧ truth = decide (before 0 = .null)
  fails _ _ _ := False
  completes _ _ _ _ := True

/-- The block with the `throw` between unknown statements does not complete normally, and the
last statement is reached only if the argument is not null, for which there is a state. -/
theorem Interpreter.alwaysReturns_sound_thrownPast :
    Body.thrownPast.validate = .ok () ∧
      Interpreter.thrownPast.alwaysReturns ⟨3⟩ = .ok true ∧
      (∀ before after, ¬Body.thrownPast.Runs .asksNull ⟨3⟩ before .normal after) ∧
      Interpreter.thrownPast.evalExpr [[.any]] ⟨2⟩ =
        .ok [⟨[.null], .isTrue⟩, ⟨[.notNull], .isFalse⟩] ∧
      Interpreter.thrownPast.evalStmts [[.any]] [⟨4⟩, ⟨5⟩] = .ok [⟨[.notNull], .isTrue⟩] ∧
      ∀ before after completion,
        Body.thrownPast.RunsAll .asksNull [⟨4⟩, ⟨5⟩] before completion after →
          (completion ≠ .normal ∧ Body.thrownPast.Runs .asksNull ⟨4⟩ before completion after) ∨
          ∃ middle, (∃ state ∈ [[Constraint.notNull]], Arguments.Admits state middle) ∧
            Body.thrownPast.RunsAll .asksNull [⟨5⟩] middle completion after := by
  have tested : Interpreter.thrownPast.evalExpr [[.any]] ⟨2⟩ =
      .ok [⟨[.null], .isTrue⟩, ⟨[.notNull], .isFalse⟩] := rfl
  have anything (values : Values) : Arguments.Admits [.any] values := by
    intro slot constraint listed
    cases List.mem_singleton.mp (List.mem_of_getElem? listed)
    rfl
  have one (constraint : Constraint) (values : Values)
      (admits : constraint.admits (values 0) = true) : Arguments.Admits [constraint] values := by
    intro slot other listed
    obtain ⟨inside, rfl⟩ := List.getElem?_eq_some_iff.mp listed
    cases Nat.lt_one_iff.mp inside
    exact admits
  -- The test for `null` has one result for each of its two answers.
  have exhausts : Exhausts Arguments.Admits .asksNull ⟨2⟩ [[.any]]
      [⟨[.null], .isTrue⟩, ⟨[.notNull], .isFalse⟩] := by
    rintro state member before holds truth after ⟨rfl, rfl⟩
    by_cases isNull : after 0 = .null
    · exact ⟨_, .head _, by simp [isNull, Constraint.ofBool],
        one .null after (by simp [isNull, Constraint.admits])⟩
    · exact ⟨_, .tail _ (.head _), by simp [isNull, Constraint.ofBool],
        one .notNull after (by simp [isNull, Constraint.admits])⟩
  obtain ⟨sound, guards⟩ := Interpreter.alwaysReturns_sound .thrownPast rfl
  obtain ⟨evaluated, reached⟩ :=
    guards ⟨4⟩ ⟨2⟩ ⟨3⟩ ⟨2, 43⟩ rfl rfl [⟨5⟩] (by decide) [[.any]] _ tested
  have never := (sound ⟨3⟩ (by decide)).mp rfl Values .asksNull
  refine ⟨rfl, rfl, never, tested, evaluated.trans rfl, ?_⟩
  intro before after completion run
  exact reached Values .asksNull Arguments.Admits exhausts before after completion
    ⟨_, List.mem_singleton_self _, anything before⟩ run

end MethodContracts
