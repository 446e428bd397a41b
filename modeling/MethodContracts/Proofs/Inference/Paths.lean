import MethodContracts.Proofs.Inference.Trees

/-!
# Evaluation paths

A path lists the tests and the bare uses of parameters that an evaluation comes
by, in order: a condition before the branch that is taken, operands from left to
right, and past a guard the statements after it. An expression that is not
understood adds nothing to a path, and a statement that is not understood ends
it, since no contract lies beyond.

Every contract is tied to a path: it comes from one of the states by what the
uses on some path do to their slots.
-/
namespace MethodContracts

/-- What an evaluation does with a parameter. -/
inductive Use where
  /-- A comparison with a literal or a type test. -/
  | test (slot : Nat)
  | bare (slot : Nat)
deriving DecidableEq, Repr

namespace Use

def slot : Use → Nat
  | .test slot | .bare slot => slot

/-- What a use does to a state: a test pins its slot, and a bare use pins it at
most while nothing is known of it. -/
inductive Step : Use → Arguments → Arguments → Prop where
  | test (slot : Nat) (constraint : Constraint) (state : Arguments) :
    Step (.test slot) state (state.set slot constraint)
  | pin (slot : Nat) (constraint : Constraint) (state : Arguments)
    (unknown : state[slot]? = some .any) : Step (.bare slot) state (state.set slot constraint)
  | pass (slot : Nat) (state : Arguments) : Step (.bare slot) state state

theorem Step.length_eq {use : Use} {before after : Arguments} (step : use.Step before after) :
    after.length = before.length := by
  cases step with
  | test | pin => exact List.length_set
  | pass => rfl

/-- A step writes no slot but that of its use. -/
theorem Step.other {use : Use} {before after : Arguments} (step : use.Step before after)
    (slot : Nat) (other : use.slot ≠ slot) : after[slot]? = before[slot]? := by
  cases step with
  | test | pin => exact List.getElem?_set_ne other
  | pass => rfl

/-- Only a test replaces what is known of an argument. -/
theorem Step.keeps {use : Use} {before after : Arguments} (step : use.Step before after)
    (slot : Nat) (untested : use ≠ .test slot) (known : Constraint) (decided : known ≠ .any)
    (found : before[slot]? = some known) : after[slot]? = some known := by
  by_cases other : use.slot = slot
  · subst other
    -- The step writes this slot. It was decided, so only a test could have pinned it.
    cases step with
    | test => exact absurd rfl untested
    | pin _ _ _ unknown =>
      rw [Use.slot, unknown] at found
      cases found
      exact absurd rfl decided
    | pass => exact found
  · rw [step.other slot other]
    exact found

end Use

/-- The second state comes from the first by the uses on the path. -/
def Along : List Use → Arguments → Arguments → Prop
  | [], before, after => before = after
  | use :: path, before, after => ∃ middle, use.Step before middle ∧ Along path middle after

namespace Along

theorem append {first second : List Use} {before middle after : Arguments}
    (start : Along first before middle) (rest : Along second middle after) :
    Along (first ++ second) before after := by
  induction first generalizing before with
  | nil =>
    cases start
    exact rest
  | cons use path ih =>
    obtain ⟨next, step, start⟩ := start
    exact ⟨next, step, ih start⟩

theorem length_eq {path : List Use} {before after : Arguments} (along : Along path before after) :
    after.length = before.length := by
  induction path generalizing before with
  | nil => rw [along]
  | cons use path ih =>
    obtain ⟨middle, step, along⟩ := along
    rw [ih along, step.length_eq]

/-- A slot that is not used on the path stays as it is. -/
theorem unused {path : List Use} {before after : Arguments} (along : Along path before after)
    (slot : Nat) (absent : ∀ use ∈ path, use.slot ≠ slot) : after[slot]? = before[slot]? := by
  induction path generalizing before with
  | nil => rw [along]
  | cons use path ih =>
    obtain ⟨middle, step, along⟩ := along
    rw [ih along fun other member => absent other (List.mem_cons_of_mem _ member),
      step.other slot (absent use List.mem_cons_self)]

/-- What is known of an argument stays unless the path tests it. -/
theorem keeps {path : List Use} {before after : Arguments} (along : Along path before after)
    (slot : Nat) (untested : .test slot ∉ path) (known : Constraint) (decided : known ≠ .any)
    (found : before[slot]? = some known) : after[slot]? = some known := by
  -- By induction on the path: every use but a test of the slot keeps what is known.
  induction path generalizing before with
  | nil =>
    cases along
    exact found
  | cons use path ih =>
    obtain ⟨middle, step, along⟩ := along
    rw [List.mem_cons, not_or] at untested
    exact ih along untested.2 (step.keeps slot (Ne.symm untested.1) known decided found)

end Along

/-- Each of the first paths, followed by each of the second. -/
def joinPaths (first second : List (List Use)) : List (List Use) :=
  first.flatMap fun before => second.map fun rest => before ++ rest

theorem append_mem_joinPaths {first second : List (List Use)} {before rest : List Use}
    (beforeMember : before ∈ first) (restMember : rest ∈ second) :
    before ++ rest ∈ joinPaths first second :=
  List.mem_flatMap.mpr ⟨before, beforeMember, List.mem_map_of_mem restMember⟩

/-- Where the second part may be left out, the first paths alone are among the joined. -/
theorem mem_joinPaths_alone {first second : List (List Use)} {before : List Use}
    (member : before ∈ first) : before ∈ joinPaths first ([] :: second) := by
  have joined : before ++ [] ∈ joinPaths first ([] :: second) :=
    append_mem_joinPaths member List.mem_cons_self
  rwa [List.append_nil] at joined

/-! ## The paths of trees -/

namespace Tree

/-- What an atom does with a parameter. -/
def Atom.use? : Atom → Option Use
  | .comparison slot _ _ | .typeTest slot => some (.test slot)
  | .use slot => some (.bare slot)
  | .constant _ | .unknown => none

namespace Expr

variable (params : List String)

mutual

/-- The paths through an expression. -/
def paths : Expr → List (List Use)
  | .chain op operands span =>
    if op.stop?.isSome then chainPaths operands
    else [((chain op operands span).atom params).use?.toList]
  | .conditional condition whenTrue whenFalse _ =>
    joinPaths condition.paths (whenTrue.paths ++ whenFalse.paths)
  | .paren inner _ => inner.paths
  | .unary .not operand _ => operand.paths
  | expr => [(expr.atom params).use?.toList]

/-- The paths through operands: each may be the last that is evaluated. -/
def chainPaths : List Expr → List (List Use)
  | [] => [[]]
  | operand :: operands => joinPaths operand.paths ([] :: chainPaths operands)

end

end Expr

namespace Stmt

variable (params : List String)

/-- The paths through a statement. -/
def paths : Stmt → List (List Use)
  | .block [only] _ => only.paths
  | .ifElse condition whenTrue (some whenFalse) _ =>
    joinPaths (condition.paths params) (whenTrue.paths ++ whenFalse.paths)
  | .ifElse condition whenTrue none _ => joinPaths (condition.paths params) ([] :: whenTrue.paths)
  | .returns (some value) _ => value.paths params
  | .assert condition _ _ => condition.paths params
  | _ => [[]]

/-- The paths through statements: past an `if` without `else` they go on. -/
def allPaths : List Stmt → List (List Use)
  | [] => [[]]
  | .ifElse condition whenTrue none _ :: stmts =>
    joinPaths (condition.paths params) (whenTrue.paths params ++ allPaths stmts)
  | stmt :: _ => stmt.paths params

end Stmt

/-! ## Contracts follow paths -/

namespace Expr

variable {params : List String} {limit : Option Nat}

theorem paths_chain {op : BinaryOp} {stop : Constraint} (stops : op.stop? = some stop)
    (operands : List Expr) (span : Span) :
    (chain op operands span).paths params = chainPaths params operands := by
  simp only [paths, stops, Option.isSome_some, ite_true]

theorem paths_atomic {expr : Expr} (atomic : expr.isAtomic = true) :
    expr.paths params = [(expr.atom params).use?.toList] := by
  cases expr with
  | chain op operands span =>
    simp only [isAtomic, Option.isNone_iff_eq_none] at atomic
    simp only [paths, atomic, Option.isSome_none, Bool.false_eq_true, ite_false]
  | conditional | paren => simp [isAtomic] at atomic
  | unary op operand span =>
    cases op with
    | not => simp [isAtomic] at atomic
    | _ => simp only [paths]
  | _ => simp only [paths]

end Expr

/-- What an atom makes of a state is a step of its use. -/
theorem Atom.yield_along (atom : Atom) (state : Arguments) (contract : Contract)
    (member : contract ∈ atom.yield state) :
    Along atom.use?.toList state contract.arguments := by
  cases atom with
  | comparison slot constraint whenEqual =>
    simp only [yield, List.mem_cons, List.not_mem_nil, or_false] at member
    rcases member with rfl | rfl
    · exact ⟨_, .test slot constraint state, rfl⟩
    · exact ⟨_, .test slot constraint.negate state, rfl⟩
  | typeTest slot =>
    cases List.mem_singleton.mp member
    exact ⟨_, .test slot .null state, rfl⟩
  | constant constraint =>
    cases List.mem_singleton.mp member
    exact rfl
  | use slot =>
    simp only [yield] at member
    split at member
    next => cases member
    -- Nothing was known, so the slot is pinned either way.
    next unknown =>
      simp only [List.mem_cons, List.not_mem_nil, or_false] at member
      rcases member with rfl | rfl
      · exact ⟨_, .pin slot .isTrue state unknown, rfl⟩
      · exact ⟨_, .pin slot .isFalse state unknown, rfl⟩
    -- What is known is passed on.
    next =>
      cases List.mem_singleton.mp member
      exact ⟨_, .pass slot state, rfl⟩
  | unknown => cases member

/-- A contract that comes from one of the states along one of the paths. -/
def Follows (paths : List (List Use)) (states : List Arguments) (contract : Contract) : Prop :=
  ∃ state ∈ states, ∃ path ∈ paths, Along path state contract.arguments

/-- Contracts of states that were handed on follow the joined paths. -/
theorem Follows.handOver {first second : List (List Use)} {states : List Arguments}
    {contracts : List Contract} {result : Constraint} {contract : Contract}
    (before : ∀ earlier ∈ contracts, Follows first states earlier)
    (after : Follows second (Contract.argumentsWith result contracts) contract) :
    Follows (joinPaths first second) states contract := by
  obtain ⟨middle, handed, rest, restMember, restAlong⟩ := after
  obtain ⟨state, member, start, startMember, startAlong⟩ :=
    before _ ((Contract.mem_argumentsWith _ _ _).mp handed)
  exact ⟨state, member, start ++ rest, append_mem_joinPaths startMember restMember,
    startAlong.append restAlong⟩

theorem Follows.mono {paths more : List (List Use)} {states : List Arguments} {contract : Contract}
    (follows : Follows paths states contract) (included : ∀ path ∈ paths, path ∈ more) :
    Follows more states contract := by
  obtain ⟨state, member, path, pathMember, along⟩ := follows
  exact ⟨state, member, path, included path pathMember, along⟩

namespace Expr

variable {params : List String} {limit : Option Nat}

theorem evalChain_follows (stop : Constraint) (operands : List Expr)
    (each : ∀ operand ∈ operands, ∀ states, ∀ contract ∈ operand.eval params limit states,
      Follows (operand.paths params) states contract)
    (live : List Arguments) (contract : Contract)
    (member : contract ∈ evalChain params limit stop operands live) :
    Follows (chainPaths params operands) live contract := by
  induction operands generalizing live with
  | nil =>
    have found := (Contract.mem_each _ _ _).mp member
    exact ⟨contract.arguments, found.1, [], List.mem_singleton_self _, rfl⟩
  | cons operand operands ih =>
    simp only [evalChain, List.mem_append, List.mem_filter] at member
    have first := each operand List.mem_cons_self live
    rcases member with ⟨final, _⟩ | later
    · -- The chain ends with this operand, on a path of the operand alone.
      exact (first contract final).mono fun path found => mem_joinPaths_alone found
    · -- The chain goes on with the states that this operand hands on.
      have rest := ih (fun other found => each other (List.mem_cons_of_mem _ found)) _ later
      exact Follows.handOver first (rest.mono fun path found => List.mem_cons_of_mem _ found)

/-- Every contract of an expression follows one of its paths. -/
theorem eval_follows (expr : Expr) (states : List Arguments) (contract : Contract)
    (member : contract ∈ expr.eval params limit states) :
    Follows (expr.paths params) states contract := by
  induction expr using byShape generalizing states contract with
  | chain op stop operands span stops ih =>
    rw [eval_chain stops, List.mem_ite_nil_right] at member
    rw [paths_chain stops]
    exact evalChain_follows stop operands ih states contract member.2
  | conditional condition whenTrue whenFalse span conditionIH trueIH falseIH =>
    simp only [eval, List.mem_ite_nil_right, List.mem_append] at member
    rcases member.2 with chosen | chosen
    · -- Each branch starts from states that the condition handed on.
      have rest := trueIH _ _ chosen
      exact Follows.handOver (conditionIH states)
        (rest.mono fun path found => List.mem_append_left _ found)
    · have rest := falseIH _ _ chosen
      exact Follows.handOver (conditionIH states)
        (rest.mono fun path found => List.mem_append_right _ found)
  | paren inner span ih =>
    simp only [eval, List.mem_ite_nil_right] at member
    exact ih states contract member.2
  | not operand span ih =>
    -- Negation changes the result and keeps the arguments.
    simp only [eval, List.mem_ite_nil_right, Contract.mem_negated] at member
    exact ih states ⟨contract.arguments, contract.result.negate⟩ member.2.2
  | atomic expr isAtomic =>
    simp only [eval_atomic isAtomic, List.mem_ite_nil_right, List.mem_flatMap] at member
    obtain ⟨_, state, found, member⟩ := member
    refine ⟨state, found, (expr.atom params).use?.toList, ?_, Atom.yield_along _ state _ member⟩
    rw [paths_atomic isAtomic]
    exact List.mem_singleton_self _

end Expr

namespace Stmt

variable {params : List String} {limit : Option Nat}

/-- Every contract of a statement follows one of its paths. -/
theorem eval_follows (stmt : Stmt) (states : List Arguments) (contract : Contract)
    (member : contract ∈ (stmt.eval params limit states).contracts) :
    Follows (stmt.paths params) states contract := by
  induction stmt using byChildren generalizing states contract with
  | step stmt ih =>
    unfold eval at member
    split at member
    next only span => exact ih only List.mem_cons_self states contract member
    next condition whenTrue whenFalse span =>
      have first : ∀ earlier ∈ condition.eval params limit states,
          Follows (condition.paths params) states earlier := condition.eval_follows states
      rcases List.mem_append.mp member with chosen | chosen
      · have rest := ih whenTrue List.mem_cons_self _ _ chosen
        exact Follows.handOver first (rest.mono fun path found => List.mem_append_left _ found)
      · have rest := ih whenFalse (by simp [children]) _ _ chosen
        exact Follows.handOver first (rest.mono fun path found => List.mem_append_right _ found)
    next condition whenTrue span =>
      have first : ∀ earlier ∈ condition.eval params limit states,
          Follows (condition.paths params) states earlier := condition.eval_follows states
      have rest := ih whenTrue List.mem_cons_self _ _ member
      exact Follows.handOver first (rest.mono fun path found => List.mem_cons_of_mem _ found)
    next value span =>
      have found := (Contract.mem_each _ _ _).mp member
      exact ⟨contract.arguments, found.1, [], List.mem_singleton_self _, rfl⟩
    next value span => exact value.eval_follows states contract member
    next condition message span =>
      have found := (Contract.mem_each _ _ _).mp member
      -- A failed assertion has the arguments of its condition.
      have failed := (Contract.mem_argumentsWith _ _ _).mp found.1
      exact condition.eval_follows states ⟨contract.arguments, .isFalse⟩ failed
    next => cases member

theorem allPaths_last (stmt : Stmt) (stmts : List Stmt) (last : stmt.isGuard = false) :
    allPaths params (stmt :: stmts) = stmt.paths params := by
  unfold allPaths
  split
  next impossible => cases impossible
  next guard =>
    cases guard
    cases last
  next found => cases found; rfl

/-- Every contract of statements follows one of their paths. -/
theorem evalAll_follows (stmts : List Stmt) (states : List Arguments) (contract : Contract)
    (member : contract ∈ evalAll params limit stmts states) :
    Follows (allPaths params stmts) states contract := by
  induction stmts using byGuards generalizing states with
  | nil => cases member
  | guard condition whenTrue span stmts ih =>
    rw [evalAll_guard, List.mem_append, List.mem_ite_nil_right] at member
    have first : ∀ earlier ∈ condition.eval params limit states,
        Follows (condition.paths params) states earlier := condition.eval_follows states
    rcases member with chosen | ⟨_, later⟩
    · have rest := whenTrue.eval_follows _ _ chosen
      exact Follows.handOver first (rest.mono fun path found => List.mem_append_left _ found)
    · have rest := ih _ later
      exact Follows.handOver first (rest.mono fun path found => List.mem_append_right _ found)
  | last stmt stmts isLast =>
    rw [evalAll_last stmt stmts isLast] at member
    rw [allPaths_last stmt stmts isLast]
    exact stmt.eval_follows states contract member

end Stmt

end Tree
end MethodContracts
