import MethodContracts.Proofs.Execution.Inversion
import MethodContracts.Proofs.Execution.Total
import MethodContracts.Proofs.Inference.Agreement
import MethodContracts.Proofs.Inference.Paths

/-!
# Soundness of inference

In a body that tests no parameter after using it, a contract says what happens:
whenever its arguments admit the values of the parameters, every execution ends
with a result that its result admits.

A contract comes from a state along a path. As long as the path tests only what
the state leaves open, no step of it forgets anything, so the values that a
contract admits are admitted by every state on the way, and every condition on
the way comes out as the path has it.
-/
namespace MethodContracts

/-! ## Paths without repeated tests -/

/-- No test comes after another use of the parameter it tests. -/
def RetestFree (path : List Use) : Prop :=
  path.Pairwise fun earlier later => later ≠ .test earlier.slot

instance (path : List Use) : Decidable (RetestFree path) :=
  inferInstanceAs (Decidable (path.Pairwise _))

/-- A path without repeated tests, on which nothing is tested that the state knows. -/
structure Fresh (state : Arguments) (path : List Use) : Prop where
  retestFree : RetestFree path
  open_of_test : ∀ slot, .test slot ∈ path → ∀ known, state[slot]? = some known → known = .any

namespace Fresh

theorem start {state : Arguments} {first rest : List Use} (fresh : Fresh state (first ++ rest)) :
    Fresh state first where
  retestFree := (List.pairwise_append.mp fresh.retestFree).1
  open_of_test slot member := fresh.open_of_test slot (List.mem_append_left _ member)

/-- What is left of a fresh path is fresh for the state that is reached. -/
theorem rest {before middle : Arguments} {first rest : List Use}
    (fresh : Fresh before (first ++ rest)) (along : Along first before middle) :
    Fresh middle rest := by
  obtain ⟨_, free, apart⟩ := List.pairwise_append.mp fresh.retestFree
  refine ⟨free, fun slot member known found => ?_⟩
  -- The slot is tested later, so nothing on the way here has used it.
  have unused := along.unused slot fun use used same =>
    apart use used (.test slot) member (same ▸ rfl)
  rw [unused] at found
  exact fresh.open_of_test slot (List.mem_append_right _ member) known found

/-- Along a fresh path nothing is forgotten. -/
theorem admits {before after : Arguments} {path : List Use} (fresh : Fresh before path)
    (along : Along path before after) {values : Values} (admits : after.Admits values) :
    before.Admits values := by
  intro slot known found
  by_cases decided : known = .any
  · -- An open slot admits every value.
    subst decided
    rfl
  · apply admits slot known
    -- A decided slot is tested nowhere on a fresh path, so it is kept.
    have untested : .test slot ∉ path := fun member =>
      decided (fresh.open_of_test slot member known found)
    exact along.keeps slot untested known decided found

end Fresh

namespace Tree

variable {params : List String} {limit : Option Nat}

/-- The states have slots for all parameters, and each path is fresh for each of them. -/
structure FreshFor (params : List String) (states : List Arguments) (paths : List (List Use)) :
    Prop where
  fit : Fit params states
  fresh : ∀ state ∈ states, ∀ path ∈ paths, Fresh state path

namespace FreshFor

variable {states : List Arguments} {paths before after : List (List Use)}

theorem mono {more : List (List Use)} (fresh : FreshFor params states more)
    (included : ∀ path ∈ paths, path ∈ more) : FreshFor params states paths where
  fit := fresh.fit
  fresh state member path found := fresh.fresh state member path (included path found)

/-- Fresh paths through two parts are fresh up to where the first part ends. -/
theorem start (fresh : FreshFor params states (joinPaths before after))
    (inhabited : ∃ rest, rest ∈ after) : FreshFor params states before where
  fit := fresh.fit
  fresh state member start startMember := by
    obtain ⟨rest, restMember⟩ := inhabited
    exact (fresh.fresh state member _ (append_mem_joinPaths startMember restMember)).start

/-- The rest of fresh paths is fresh for the states that are handed on. -/
theorem rest {contracts : List Contract} (result : Constraint)
    (fresh : FreshFor params states (joinPaths before after))
    (follow : ∀ contract ∈ contracts, Follows before states contract) :
    FreshFor params (Contract.argumentsWith result contracts) after where
  fit := fresh.fit.argumentsWith follow result
  fresh middle handed rest restMember := by
    obtain ⟨state, member, start, startMember, along⟩ :=
      follow _ ((Contract.mem_argumentsWith _ _ _).mp handed)
    exact (fresh.fresh state member _ (append_mem_joinPaths startMember restMember)).rest along

/-- What a contract admits along fresh paths, the state it comes from admits. -/
theorem admits {contract : Contract} (fresh : FreshFor params states paths)
    (follows : Follows paths states contract) {values : Values}
    (admits : contract.arguments.Admits values) : ∃ state ∈ states, state.Admits values := by
  obtain ⟨state, member, path, pathMember, along⟩ := follows
  exact ⟨state, member, (fresh.fresh state member path pathMember).admits along admits⟩

end FreshFor

/-! ## Expressions -/

namespace Expr

/-- For the values that the arguments admit the expression yields what the result
says, and leaves the parameters as they are. -/
def Promises (params : List String) (expr : Expr) (contract : Contract) : Prop :=
  ∀ values, contract.arguments.Admits values →
    ∀ outcome after, expr.Evaluates params values outcome after →
      after = values ∧ ∃ value, outcome = .value value ∧ contract.result.admits value = true

/-- A promise of `true` or `false` leaves one outcome. -/
theorem Promises.decides {expr : Expr} {arguments : Arguments} {truth : Bool}
    (promises : expr.Promises params ⟨arguments, .ofBool truth⟩) {values : Values}
    (admits : arguments.Admits values) : expr.Decides params values truth := by
  intro outcome after run
  obtain ⟨same, value, rfl, admitted⟩ := promises values admits outcome after run
  exact ⟨same, congrArg ExprOutcome.value ((Constraint.admits_ofBool truth value).mp admitted)⟩

/-- A contract that comes from states handed on by a condition: what is left of
the paths is fresh for those states, and for the arguments of the contract the
condition yields the result with which they were handed on. -/
theorem Promises.handOver {condition : Expr} {states : List Arguments} {result : Constraint}
    {paths after : List (List Use)} {contract : Contract}
    (sound : FreshFor params states (condition.paths params) →
      ∀ earlier ∈ condition.eval params limit states, condition.Promises params earlier)
    (fresh : FreshFor params states (joinPaths (condition.paths params) after))
    (included : ∀ path ∈ paths, path ∈ after)
    (follows : Follows paths
      (Contract.argumentsWith result (condition.eval params limit states)) contract) :
    FreshFor params (Contract.argumentsWith result (condition.eval params limit states)) paths ∧
      condition.Promises params ⟨contract.arguments, result⟩ := by
  have later : FreshFor params
      (Contract.argumentsWith result (condition.eval params limit states)) paths :=
    (fresh.rest result (condition.eval_follows states)).mono included
  refine ⟨later, fun values admits => ?_⟩
  -- What the contract admits, a state that the condition handed on admits too.
  obtain ⟨middle, handed, middleAdmits⟩ := later.admits follows admits
  obtain ⟨_, _, path, pathMember, _⟩ := follows
  have promises := sound (fresh.start ⟨path, included path pathMember⟩)
  exact promises _ ((Contract.mem_argumentsWith _ _ _).mp handed) values middleAdmits

/-! ### One parameter -/

/-- A pinned slot holds what it was pinned to. -/
private theorem admits_of_set {state : Arguments} {slot : Nat} {constraint : Constraint}
    {values : Values}
    (inside : slot < state.length) (admits : Arguments.Admits (state.set slot constraint) values) :
    constraint.admits (values slot) = true :=
  admits slot constraint (List.getElem?_set_self inside)

/-- What evaluation takes for a comparison compares a parameter with a value. -/
theorem compares_of_comparison? {left right : Expr} {slot : Nat} {constraint : Constraint}
    (found : left.comparison? params right = some (slot, constraint)) :
    ∃ value, Compares params left right slot value ∧
      (∀ other, constraint.admits other = true ↔ other = value) ∧
      ∀ other, constraint.negate.admits other = true →
        other ≠ value ∧ (value ≠ .null → other ≠ .null) := by
  rcases comparison?_eq_some found with ⟨isSlot, isConstant⟩ | ⟨isSlot, isConstant⟩
  all_goals
    obtain ⟨word, nameSpan, rfl, named⟩ := slot?_eq_some isSlot
    obtain ⟨kind, text, literalSpan, rfl, constant⟩ := constant?_eq_some isConstant
    obtain ⟨value, valued, same, other⟩ := kind.value_of_constraint _ constant
  · exact ⟨value, .paramFirst named valued, same, other⟩
  · exact ⟨value, .literalFirst named valued, same, other⟩

/-- Both contracts of a comparison are promises: each pins the parameter to the
constraint that decides the comparison. -/
private theorem comparison_promises {op : BinaryOp} (whenEqual : Bool)
    (meaning : op.whenEqual? = some whenEqual) {left right : Expr} {span : Span} {slot : Nat}
    {constraint : Constraint} (found : left.comparison? params right = some (slot, constraint))
    {state : Arguments} (fit : params.length ≤ state.length) {contract : Contract}
    (member : contract ∈ (Atom.comparison slot constraint (.ofBool whenEqual)).yield state) :
    (chain op [left, right] span).Promises params contract := by
  intro values admits outcome after run
  obtain ⟨value, compares, same, other⟩ := compares_of_comparison? found
  have inside : slot < state.length := by
    have := compares.slot_lt
    omega
  simp only [Atom.yield, List.mem_cons, List.not_mem_nil, or_false] at member
  rcases member with rfl | rfl
  · -- The first contract pins the slot to the literal, so the two are equal.
    have equal := (same _).mp (admits_of_set inside admits)
    obtain ⟨rfl, rfl⟩ := run.of_comparison meaning compares fun boolean => equal ▸ boolean
    exact ⟨rfl, _, rfl, by simp [equal]⟩
  · -- The second pins it to the opposite, so they differ.
    obtain ⟨unequal, comparable⟩ := other _ (admits_of_set inside admits)
    obtain ⟨rfl, rfl⟩ := run.of_comparison meaning compares comparable
    exact ⟨rfl, _, rfl, by simp [unequal]⟩

/-- What an atomic expression yields for a state is a promise, unless it tests
what the state knows. -/
private theorem atom_promises {expr : Expr} {state : Arguments} (fit : params.length ≤ state.length)
    (fresh : Fresh state (expr.atom params).use?.toList) {contract : Contract}
    (member : contract ∈ (expr.atom params).yield state) : expr.Promises params contract := by
  have along := Atom.yield_along _ state contract member
  have asks := expr.atom_asks params
  generalize expr.atom params = atom at asks fresh along member
  cases asks with
  | equal found => exact comparison_promises true rfl found fit member
  | notEqual found => exact comparison_promises false rfl found fit member
  | @typeTest operand type span slot found =>
    obtain ⟨word, nameSpan, rfl, named⟩ := slot?_eq_some found
    have inside : slot < state.length := Nat.lt_of_lt_of_le (slot_lt_length named) fit
    cases List.mem_singleton.mp member
    intro values admits outcome after run
    have absent : values slot = .null := by
      simpa [Constraint.admits] using admits_of_set inside admits
    obtain ⟨rfl, rfl⟩ := run.of_instanceOf named absent
    exact ⟨rfl, _, rfl, rfl⟩
  | @constant kind text span constraint found =>
    obtain ⟨value, constant, same, _⟩ := kind.value_of_constraint constraint found
    cases List.mem_singleton.mp member
    intro values admits outcome after run
    obtain ⟨rfl, rfl⟩ := run.of_literal constant
    exact ⟨rfl, value, rfl, (same value).mpr rfl⟩
  | @use word span slot named =>
    intro values admits outcome after run
    obtain ⟨rfl, rfl⟩ := run.of_name named
    refine ⟨rfl, _, rfl, ?_⟩
    simp only [Atom.yield] at member
    split at member
    next => cases member
    -- Nothing was known: the slot is pinned to the truth value that is promised.
    next open_ =>
      have inside : slot < state.length := (List.getElem?_eq_some_iff.mp open_).choose
      simp only [List.mem_cons, List.not_mem_nil, or_false] at member
      rcases member with rfl | rfl
      · exact admits_of_set inside admits
      · exact admits_of_set inside admits
    -- The slot is known, and the path does not overwrite it.
    next known _ found =>
      cases List.mem_singleton.mp member
      exact fresh.admits along admits slot known found
  | unknown => cases member

/-! ### Nested expressions -/

/-- What operands yield from left to right comes true of them from left to right. -/
private theorem evalChain_sound (stop : Bool) (operands : List Expr)
    (each : ∀ operand ∈ operands, ∀ states, FreshFor params states (operand.paths params) →
      ∀ contract ∈ operand.eval params limit states, operand.Promises params contract)
    (live : List Arguments) (fresh : FreshFor params live (chainPaths params operands))
    (contract : Contract) (member : contract ∈ evalChain params limit (.ofBool stop) operands live)
    (values : Values) (admits : contract.arguments.Admits values) (outcome : ExprOutcome)
    (after : Values) (run : EvaluatesChain params stop operands values outcome after) :
    after = values ∧ ∃ value, outcome = .value value ∧ contract.result.admits value = true := by
  -- By induction on the operands, each of which sees the states its predecessor hands on.
  induction operands generalizing live values with
  | nil =>
    cases run
    -- Nothing stopped the chain.
    have negated := ((Contract.mem_each _ _ _).mp member).2
    rw [negated, Constraint.negate_ofBool]
    exact ⟨rfl, _, rfl, by simp⟩
  | cons operand operands ih =>
    simp only [evalChain, List.mem_append, List.mem_filter, beq_iff_eq] at member
    rcases member with ⟨final, stops⟩ | later
    · -- This operand stops the chain.
      have here := fresh.start ⟨[], List.mem_cons_self⟩
      have promise : operand.Promises params ⟨contract.arguments, .ofBool stop⟩ :=
        stops ▸ each operand List.mem_cons_self live here contract final
      obtain ⟨rfl, rfl⟩ := (promise.decides admits).chain_stop run
      rw [stops]
      exact ⟨rfl, _, rfl, by simp⟩
    · -- The chain goes on, from states under which this operand is the opposite of stop.
      have follows := evalChain_follows _ operands (fun other _ => other.eval_follows) _ _ later
      obtain ⟨freshLater, promise⟩ := Promises.handOver (each operand List.mem_cons_self live) fresh
        (fun path found => List.mem_cons_of_mem _ found) follows
      rw [Constraint.negate_ofBool] at promise
      exact ih (fun other found => each other (List.mem_cons_of_mem _ found)) _ freshLater later
        _ admits ((promise.decides admits).chain_next run)

/-- A negated truth value is promised by the operand as it was. -/
theorem Promises.not {operand : Expr} {span : Span} {arguments : Arguments} (truth : Bool)
    (promises : operand.Promises params ⟨arguments, .ofBool truth⟩) :
    (unary .not operand span).Promises params ⟨arguments, .ofBool !truth⟩ := by
  intro values admits outcome after run
  obtain ⟨same, rfl⟩ := (promises.decides admits).not outcome after run
  exact ⟨same, _, rfl, by simp⟩

/-- What a branch promises, the conditional promises if the condition takes it there. -/
theorem Promises.conditional {condition whenTrue whenFalse : Expr} {span : Span}
    {contract : Contract} (truth : Bool)
    (decided : condition.Promises params ⟨contract.arguments, .ofBool truth⟩)
    (branch : (if truth then whenTrue else whenFalse).Promises params contract) :
    (Expr.conditional condition whenTrue whenFalse span).Promises params contract := by
  intro values admits outcome after run
  exact branch values admits outcome after ((decided.decides admits).conditional run)

/-- What an expression yields for states that its paths do not test comes true. -/
private theorem eval_sound (expr : Expr) (states : List Arguments)
    (fresh : FreshFor params states (expr.paths params)) (contract : Contract)
    (member : contract ∈ expr.eval params limit states) : expr.Promises params contract := by
  induction expr using byShape generalizing states contract with
  | chain op stop operands span stops ih =>
    obtain ⟨truth, rfl⟩ := BinaryOp.stop_eq_ofBool stops
    rw [eval_chain stops, List.mem_ite_nil_right] at member
    rw [paths_chain stops] at fresh
    intro values admits outcome after run
    exact evalChain_sound truth operands ih states fresh contract member.2 values admits outcome
      after (run.of_chain stops)
  | conditional condition whenTrue whenFalse span conditionIH trueIH falseIH =>
    simp only [eval, List.mem_ite_nil_right, List.mem_append] at member
    rcases member.2 with chosen | chosen
    · obtain ⟨later, decided⟩ := Promises.handOver (conditionIH states) fresh
        (fun path found => List.mem_append_left _ found) (whenTrue.eval_follows _ _ chosen)
      exact Promises.conditional true decided (trueIH _ later contract chosen)
    · obtain ⟨later, decided⟩ := Promises.handOver (conditionIH states) fresh
        (fun path found => List.mem_append_right _ found) (whenFalse.eval_follows _ _ chosen)
      exact Promises.conditional false decided (falseIH _ later contract chosen)
  | paren inner span ih =>
    simp only [eval, List.mem_ite_nil_right] at member
    intro values admits outcome after run
    cases run with
    | paren run => exact ih states fresh contract member.2 values admits outcome after run
    | unknown foreign => exact absurd .paren foreign
  | not operand span ih =>
    simp only [eval, List.mem_ite_nil_right, Contract.mem_negated] at member
    obtain ⟨arguments, result⟩ := contract
    obtain ⟨_, boolean, member⟩ := member
    have promises := ih states fresh _ member
    -- Negation yields true or false, and each fixes what the operand yields.
    rcases boolean with rfl | rfl
    · exact Promises.not false promises
    · exact Promises.not true promises
  | atomic expr isAtomic =>
    simp only [eval_atomic isAtomic, List.mem_ite_nil_right, List.mem_flatMap] at member
    obtain ⟨_, state, found, member⟩ := member
    rw [paths_atomic isAtomic] at fresh
    exact atom_promises (fresh.fit state found)
      (fresh.fresh state found _ (List.mem_singleton_self _)) member

end Expr

/-! ## Statements -/

namespace Stmt

/-- For the values that the arguments admit the statement ends as the result says. -/
def Promises (params : List String) (stmt : Stmt) (contract : Contract) : Prop :=
  ∀ values, contract.arguments.Admits values →
    ∀ completion after, stmt.Runs params values completion after →
      completion.Meets contract.result

/-- For the values that the arguments admit the statements end as the result says. -/
def AllPromise (params : List String) (stmts : List Stmt) (contract : Contract) : Prop :=
  ∀ values, contract.arguments.Admits values →
    ∀ completion after, RunsAll params stmts values completion after →
      completion.Meets contract.result

/-- Nothing is run after a statement that ends as a result says. -/
theorem AllPromise.first {stmt : Stmt} {stmts : List Stmt} {contract : Contract}
    (promises : stmt.Promises params contract) : AllPromise params (stmt :: stmts) contract := by
  intro values admits completion after run
  exact promises values admits completion after
    (run.first fun middle normal => promises values admits _ middle normal)

/-- What a statement yields for states that its paths do not test comes true. -/
private theorem eval_sound (stmt : Stmt) (states : List Arguments)
    (fresh : FreshFor params states (stmt.paths params)) (contract : Contract)
    (member : contract ∈ (stmt.eval params limit states).contracts) :
    stmt.Promises params contract := by
  induction stmt using byChildren generalizing states contract with
  | step stmt ih =>
    unfold eval at member
    split at member
    next only span =>
      have promises : AllPromise params [only] contract :=
        AllPromise.first (ih only List.mem_cons_self states fresh contract member)
      intro values admits completion after run
      exact promises values admits completion after run.of_block
    next condition whenTrue whenFalse span =>
      -- Each branch starts from states under which the condition takes it there.
      rcases List.mem_append.mp member with chosen | chosen
      · obtain ⟨later, decided⟩ := Expr.Promises.handOver (condition.eval_sound states) fresh
          (fun path found => List.mem_append_left _ found) (whenTrue.eval_follows _ _ chosen)
        intro values admits completion after run
        exact ih whenTrue List.mem_cons_self _ later contract chosen values admits completion after
          ((decided.decides admits).ifTrue run)
      · obtain ⟨later, decided⟩ := Expr.Promises.handOver (condition.eval_sound states) fresh
          (fun path found => List.mem_append_right _ found) (whenFalse.eval_follows _ _ chosen)
        intro values admits completion after run
        exact ih whenFalse (by simp [children]) _ later contract chosen values admits completion
          after ((decided.decides admits).ifFalse run)
    next condition whenTrue span =>
      obtain ⟨later, decided⟩ := Expr.Promises.handOver (condition.eval_sound states) fresh
        (fun path found => List.mem_cons_of_mem _ found) (whenTrue.eval_follows _ _ member)
      intro values admits completion after run
      exact ih whenTrue List.mem_cons_self _ later contract member values admits completion after
        ((decided.decides admits).ifTrue run)
    next value span =>
      intro values admits completion after run
      rw [((Contract.mem_each _ _ _).mp member).2]
      cases run with
      | throws => exact rfl
      | unknown foreign => cases foreign
    next value span =>
      have promises := value.eval_sound states fresh contract member
      intro values admits completion after run
      cases run with
      | returns run =>
        obtain ⟨_, result, equal, admitted⟩ := promises values admits _ _ run
        cases equal
        exact admitted
      | returnsThrown run =>
        obtain ⟨_, result, equal, _⟩ := promises values admits _ _ run
        cases equal
      | unknown foreign => cases foreign
    next condition message span =>
      -- An assertion yields contracts only for states under which it fails.
      obtain ⟨handed, failed⟩ := (Contract.mem_each _ _ _).mp member
      have decided : condition.Promises params ⟨contract.arguments, .ofBool false⟩ :=
        condition.eval_sound states fresh _ ((Contract.mem_argumentsWith _ _ _).mp handed)
      intro values admits completion after run
      rw [failed]
      cases run with
      | assertTrue run => cases (decided.decides admits _ _ run).2
      | assertFalse => exact rfl
      | assertThrown run => cases (decided.decides admits _ _ run).2
      | assertOpen run neither =>
        cases (decided.decides admits _ _ run).2
        exact absurd rfl (neither false)
      | unknown foreign => cases foreign
    next => cases member

/-- What statements yield for states that their paths do not test comes true. -/
theorem evalAll_sound (stmts : List Stmt) (states : List Arguments)
    (fresh : FreshFor params states (allPaths params stmts)) (contract : Contract)
    (member : contract ∈ evalAll params limit stmts states) : AllPromise params stmts contract := by
  induction stmts using byGuards generalizing states with
  | nil => cases member
  | guard condition whenTrue span stmts ih =>
    rw [evalAll_guard, List.mem_append, List.mem_ite_nil_right] at member
    -- The guard is taken and ends the body, or it is passed.
    rcases member with chosen | ⟨_, past⟩
    · obtain ⟨later, decided⟩ := Expr.Promises.handOver (condition.eval_sound states) fresh
        (fun path found => List.mem_append_left _ found) (whenTrue.eval_follows _ _ chosen)
      have promises : (ifElse condition whenTrue none span).Promises params contract := by
        intro values admits completion after run
        exact whenTrue.eval_sound _ later contract chosen values admits completion after
          ((decided.decides admits).ifTrue run)
      exact AllPromise.first promises
    · obtain ⟨later, decided⟩ := Expr.Promises.handOver (condition.eval_sound states) fresh
        (fun path found => List.mem_append_right _ found) (evalAll_follows _ _ _ past)
      intro values admits completion after run
      exact ih _ later past values admits completion after ((decided.decides admits).guard run)
  | last stmt stmts isLast =>
    rw [evalAll_last stmt stmts isLast] at member
    rw [allPaths_last stmt stmts isLast] at fresh
    exact AllPromise.first (stmt.eval_sound states fresh contract member)

end Stmt

end Tree

/-! ## Methods -/

/-- No path through the body tests a parameter after using it. -/
def Body.RetestFree (params : List String) (body : Body) : Prop :=
  ∀ path ∈ Tree.Stmt.allPaths params body.tree.statements, MethodContracts.RetestFree path

instance (params : List String) (body : Body) : Decidable (body.RetestFree params) :=
  inferInstanceAs (Decidable (∀ path ∈ _, _))

/-- Nothing is known at first, so every path without repeated tests is fresh. -/
theorem Fresh.unknown {path : List Use} (count : Nat) (free : RetestFree path) :
    Fresh (Arguments.unknown count) path where
  retestFree := free
  open_of_test _ _ known found := by
    rw [Arguments.unknown, List.getElem?_replicate, Option.ite_none_right_eq_some] at found
    exact (Option.some.inj found.2).symm

/-- Inference is sound: in a valid body that tests no parameter after using it,
every execution from values that a contract admits ends as the contract says. -/
theorem Method.inferContracts_sound (method : Method) (body : Body)
    (present : method.body = some body) (accepted : body.validate = .ok ())
    (free : body.RetestFree (method.params.map (·.name))) (maxStates : Nat) :
    ∃ contracts, method.inferContracts maxStates = .ok contracts ∧
      ∀ contract ∈ contracts, ∀ values, contract.arguments.Admits values →
        (∃ completion after,
          body.tree.Runs (method.params.map (·.name)) values completion after) ∧
        ∀ completion after,
          body.tree.Runs (method.params.map (·.name)) values completion after →
            completion.Meets contract.result := by
  have valid := body.valid_of_validate accepted
  refine ⟨_, method.inferContracts_eq body present valid maxStates, ?_⟩
  intro contract member values admits
  refine ⟨body.tree.runs_total _ values, fun completion after run => ?_⟩
  have fresh : Tree.FreshFor (method.params.map (·.name))
      [Arguments.unknown method.params.length]
      (Tree.Stmt.allPaths (method.params.map (·.name)) body.tree.statements) := by
    constructor
    · intro state found
      cases List.mem_singleton.mp found
      simp [Arguments.unknown]
    · intro state found path pathMember
      cases List.mem_singleton.mp found
      exact .unknown _ (free path pathMember)
  exact Tree.Stmt.evalAll_sound _ _ fresh contract member values admits completion after
    run.statements

/-- The body `if (x == null) throw x; return y;`. -/
def Body.nullGuard : Body where
  root := ⟨3⟩
  stmts := #[.throws ⟨0⟩ ⟨15, 23⟩, .ifElse ⟨2⟩ ⟨0⟩ none ⟨0, 23⟩, .returns (some ⟨3⟩) ⟨24, 33⟩,
    .block [⟨1⟩, ⟨2⟩] ⟨0, 33⟩]
  exprs := #[.name "x" ⟨4, 5⟩, .literal .null "null" ⟨9, 13⟩, .chain .equal [⟨0⟩, ⟨1⟩] ⟨4, 13⟩,
    .name "y" ⟨31, 32⟩]

/-- A method of two parameters with that body. -/
def Method.nullGuard : Method where
  name := "f"
  owner := none
  params := [⟨"x", "Object"⟩, ⟨"y", "boolean"⟩]
  annotations := []
  body := some .nullGuard
  span := ⟨0, 33⟩

theorem Method.inferContracts_sound_nullGuard :
    Body.nullGuard.validate = .ok () ∧ Body.nullGuard.RetestFree ["x", "y"] ∧
      Method.nullGuard.inferContracts 300 =
        .ok [⟨[.null, .any], .fail⟩, ⟨[.notNull, .isTrue], .isTrue⟩,
          ⟨[.notNull, .isFalse], .isFalse⟩] ∧
      ∃ contracts, Method.nullGuard.inferContracts 300 = .ok contracts ∧
        ∀ contract ∈ contracts, ∀ values, contract.arguments.Admits values →
          (∃ completion after, Body.nullGuard.tree.Runs ["x", "y"] values completion after) ∧
          ∀ completion after, Body.nullGuard.tree.Runs ["x", "y"] values completion after →
            completion.Meets contract.result :=
  ⟨rfl, by decide, rfl,
    Method.inferContracts_sound .nullGuard .nullGuard rfl rfl (by decide) 300⟩

end MethodContracts
