import MethodContracts.Proofs.Inference.Frame
import MethodContracts.Proofs.Inference.Soundness

/-!
# Contracts that exclude each other

In a body that tests no parameter after using it, no values meet the arguments of two
inferred contracts, so it does not matter which of them comes first. Evaluation divides
what a state admits among its contracts: whatever the values are, no more contracts admit
them than there were states that did.
-/
namespace MethodContracts

namespace Arguments

/-- No values meet both. -/
def Excludes (left right : Arguments) : Prop :=
  ∀ values, left.Admits values → ¬right.Admits values

/-- No values meet the arguments at two places of the list. -/
def Exclusive (states : List Arguments) : Prop := states.Pairwise Excludes

instance (arguments : Arguments) (values : Values) : Decidable (arguments.Admits values) :=
  decidable_of_iff
    (∀ (slot : Nat) (inside : slot < arguments.length),
      arguments[slot].admits (values slot) = true)
    ⟨fun each slot constraint found => by
      obtain ⟨inside, rfl⟩ := List.getElem?_eq_some_iff.mp found
      exact each slot inside,
    fun admits slot inside => admits slot _ (List.getElem?_eq_getElem inside)⟩

/-! ## Counting the states that admit values -/

/-- The number of states that admit the values. -/
def hits (values : Values) (states : List Arguments) : Nat :=
  states.countP fun state => decide (state.Admits values)

variable {values : Values}

private theorem hits_append (first second : List Arguments) :
    hits values (first ++ second) = hits values first + hits values second :=
  List.countP_append

private theorem hits_cons (state : Arguments) (states : List Arguments) :
    hits values (state :: states) =
      hits values states + if state.Admits values then 1 else 0 := by
  simp only [hits, List.countP_cons, decide_eq_true_eq]

private theorem hits_pos_iff (states : List Arguments) :
    0 < hits values states ↔ ∃ state ∈ states, state.Admits values := by
  simp only [hits, List.countP_pos_iff, decide_eq_true_eq]

private theorem hits_le_of_sublist {fewer more : List Arguments} (kept : fewer.Sublist more) :
    hits values fewer ≤ hits values more :=
  kept.countP_le

/-- States exclude each other exactly if no values hit two of them. -/
private theorem exclusive_iff (states : List Arguments) :
    Exclusive states ↔ ∀ values, hits values states ≤ 1 := by
  induction states with
  | nil => exact iff_of_true List.Pairwise.nil fun _ => Nat.zero_le 1
  | cons state states ih =>
    have pairwise : Exclusive (state :: states) ↔
        (∀ other ∈ states, state.Excludes other) ∧ Exclusive states := List.pairwise_cons
    rw [pairwise, ih]
    constructor
    · rintro ⟨apart, rest⟩ values
      rw [hits_cons]
      split
      next admits =>
        -- Values that hit the first state hit no other.
        have missed : ¬0 < hits values states := by
          rw [hits_pos_iff]
          rintro ⟨other, member, others⟩
          exact apart other member values admits others
        omega
      next => exact rest values
    · intro few
      refine ⟨fun other member values admits others => ?_, fun values => ?_⟩
      · have counted := few values
        have hit := (hits_pos_iff states).mpr ⟨other, member, others⟩
        rw [hits_cons, if_pos admits] at counted
        omega
      · have counted := few values
        rw [hits_cons] at counted
        omega

/-- A slot of which nothing is known may be pinned: then the values have to fit there too. -/
private theorem admits_set_iff {state : Arguments} {slot : Nat} (unknown : state[slot]? = some .any)
    (constraint : Constraint) :
    Admits (state.set slot constraint) values ↔
      state.Admits values ∧ constraint.admits (values slot) = true := by
  obtain ⟨inside, open_⟩ := List.getElem?_eq_some_iff.mp unknown
  constructor
  · intro admits
    -- The slot was open before, so it restricted nothing.
    refine ⟨fun other known found => ?_, admits slot constraint (List.getElem?_set_self inside)⟩
    by_cases same : slot = other
    · subst same
      rw [unknown] at found
      cases found
      rfl
    · exact admits other known ((List.getElem?_set_ne same).trans found)
  · rintro ⟨admits, fits⟩ other known found
    by_cases same : slot = other
    · subst same
      rw [List.getElem?_set_self inside] at found
      cases found
      exact fits
    · exact admits other known ((List.getElem?_set_ne same).symm.trans found)

end Arguments

open Arguments (hits hits_append hits_cons)

variable {values : Values}

/-- Contracts that are handed on with different results are different contracts. -/
private theorem Contract.hits_handed_le {left right : Constraint} (apart : left ≠ right)
    (contracts : List Contract) :
    hits values (argumentsWith left contracts) + hits values (argumentsWith right contracts) ≤
      hits values (contracts.map (·.arguments)) := by
  induction contracts with
  | nil => exact Nat.le_refl 0
  | cons contract contracts ih =>
    simp only [argumentsWith, List.filter_cons, beq_iff_eq, List.map_cons, hits_cons] at ih ⊢
    -- A contract is handed on with one of the two results at most.
    by_cases first : contract.result = left
    · have second : contract.result ≠ right := first ▸ apart
      simp only [first, apart, ite_true, ite_false, List.map_cons, hits_cons]
      omega
    · by_cases second : contract.result = right
      · simp only [second, apart.symm, ite_true, ite_false, List.map_cons, hits_cons]
        omega
      · simp only [first, second, ite_false]
        omega

private theorem Contract.hits_argumentsWith_le (result : Constraint) (contracts : List Contract) :
    hits values (argumentsWith result contracts) ≤ hits values (contracts.map (·.arguments)) :=
  Arguments.hits_le_of_sublist (List.filter_sublist.map _)

private theorem Contract.map_arguments_each (states : List Arguments) (result : Constraint) :
    (each states result).map (·.arguments) = states := by
  simp only [each, List.map_map, Function.comp_def, List.map_id']

namespace Tree

variable {params : List String} {limit : Option Nat}

/-- The paths test nothing twice, and of what they test the states know nothing. -/
structure OpenFor (states : List Arguments) (paths : List (List Use)) : Prop where
  retestFree : ∀ path ∈ paths, RetestFree path
  unknown : ∀ state ∈ states, ∀ path ∈ paths, ∀ slot, .test slot ∈ path →
    state[slot]? = some .any

namespace OpenFor

variable {states : List Arguments} {paths before after : List (List Use)}

theorem mono {more : List (List Use)} (isOpen : OpenFor states more)
    (included : ∀ path ∈ paths, path ∈ more) : OpenFor states paths where
  retestFree path found := isOpen.retestFree path (included path found)
  unknown state member path found := isOpen.unknown state member path (included path found)

theorem start (isOpen : OpenFor states (joinPaths before after))
    (inhabited : ∃ rest, rest ∈ after) : OpenFor states before := by
  obtain ⟨rest, restMember⟩ := inhabited
  have joined (path : List Use) (found : path ∈ before) := append_mem_joinPaths found restMember
  exact {
    retestFree := fun path found =>
      (List.pairwise_append.mp (isOpen.retestFree _ (joined path found))).1
    unknown := fun state member path found slot tested =>
      isOpen.unknown state member _ (joined path found) slot (List.mem_append_left _ tested) }

/-- What the second part tests, no state knows that the first part hands on. -/
theorem rest {contracts : List Contract} (result : Constraint)
    (isOpen : OpenFor states (joinPaths before after)) (inhabited : ∃ start, start ∈ before)
    (follow : ∀ contract ∈ contracts, Follows before states contract) :
    OpenFor (Contract.argumentsWith result contracts) after where
  retestFree path found := by
    obtain ⟨start, startMember⟩ := inhabited
    exact (List.pairwise_append.mp
      (isOpen.retestFree _ (append_mem_joinPaths startMember found))).2.1
  unknown middle handed path found slot tested := by
    obtain ⟨state, member, start, startMember, along⟩ :=
      follow _ ((Contract.mem_argumentsWith _ _ _).mp handed)
    have joined := append_mem_joinPaths startMember found
    -- The slot is tested later, so the way here has not used it.
    have unused := along.unused slot fun use used same =>
      (List.pairwise_append.mp (isOpen.retestFree _ joined)).2.2 use used (.test slot) tested
        (same ▸ rfl)
    rw [unused]
    exact isOpen.unknown state member _ joined slot (List.mem_append_right _ tested)

end OpenFor

/-! ## Expressions -/

/-- No value is both what a comparison asks for and its opposite. -/
private theorem Expr.apart_of_atom {expr : Expr} {slot : Nat} {constraint whenEqual : Constraint}
    (asks : expr.atom params = .comparison slot constraint whenEqual) (value : Value)
    (admits : constraint.admits value = true) : constraint.negate.admits value ≠ true := by
  obtain ⟨left, right, found⟩ := comparison?_of_atom asks
  obtain ⟨literal, _, same, other⟩ := compares_of_comparison? found
  intro opposite
  exact (other value opposite).1 ((same value).mp admits)

/-- An atom divides what a state admits among its contracts. -/
private theorem Expr.hits_yield_le (expr : Expr) (state : Arguments)
    (unknown : ∀ slot, .test slot ∈ (expr.atom params).use?.toList → state[slot]? = some .any) :
    hits values (((expr.atom params).yield state).map (·.arguments)) ≤ hits values [state] := by
  cases asks : expr.atom params with
  | comparison slot constraint whenEqual =>
    have isOpen : state[slot]? = some .any := unknown slot (by rw [asks]; exact List.mem_cons_self)
    have apart := apart_of_atom asks (values slot)
    simp only [Atom.yield, List.map_cons, List.map_nil, hits_cons,
      Arguments.admits_set_iff isOpen]
    by_cases admits : state.Admits values
    · by_cases equal : constraint.admits (values slot) = true
      · simp [admits, equal, apart equal]
      · simp only [admits, equal]
        split <;> simp
    · simp [admits]
  | typeTest slot =>
    have isOpen : state[slot]? = some .any := unknown slot (by rw [asks]; exact List.mem_cons_self)
    simp only [Atom.yield, List.map_cons, List.map_nil, hits_cons,
      Arguments.admits_set_iff isOpen]
    by_cases admits : state.Admits values
    · simp only [admits]
      split <;> simp
    · simp [admits]
  | constant constraint => exact Nat.le_refl _
  | use slot =>
    simp only [Atom.yield]
    split
    next => exact Nat.zero_le _
    -- No value is both true and false.
    next isOpen =>
      simp only [List.map_cons, List.map_nil, hits_cons, Arguments.admits_set_iff isOpen,
        Constraint.admits, decide_eq_true_eq]
      by_cases admits : state.Admits values
      · by_cases isTrue : values slot = .isTrue
        · simp [admits, isTrue]
        · simp only [admits, isTrue]
          split <;> simp
      · simp [admits]
    next => exact Nat.le_refl _
  | unknown => exact Nat.zero_le _

namespace Expr

private theorem paths_inhabited (expr : Expr) : ∃ path, path ∈ expr.paths params := by
  induction expr using byShape with
  | chain op stop operands span stops ih =>
    rw [paths_chain stops]
    cases operands with
    | nil => exact ⟨[], List.mem_cons_self⟩
    | cons operand operands =>
      obtain ⟨path, found⟩ := ih operand List.mem_cons_self
      exact ⟨path, mem_joinPaths_alone found⟩
  | conditional condition whenTrue whenFalse span conditionIH trueIH _ =>
    obtain ⟨start, startFound⟩ := conditionIH
    obtain ⟨rest, restFound⟩ := trueIH
    exact ⟨start ++ rest, append_mem_joinPaths startFound (List.mem_append_left _ restFound)⟩
  | paren inner span ih => exact ih
  | not operand span ih => exact ih
  | atomic expr isAtomic =>
    rw [paths_atomic isAtomic]
    exact ⟨_, List.mem_cons_self⟩

private theorem hits_yields_le (expr : Expr) (states : List Arguments)
    (unknown : ∀ state ∈ states, ∀ slot, .test slot ∈ (expr.atom params).use?.toList →
      state[slot]? = some .any) :
    hits values ((states.flatMap fun state => (expr.atom params).yield state).map (·.arguments)) ≤
      hits values states := by
  induction states with
  | nil => exact Nat.le_refl _
  | cons state states ih =>
    have here : hits values (((expr.atom params).yield state).map (·.arguments)) ≤
        hits values [state] := expr.hits_yield_le state (unknown state List.mem_cons_self)
    have rest := ih fun other member => unknown other (List.mem_cons_of_mem _ member)
    rw [List.flatMap_cons, List.map_append, hits_append, ← List.singleton_append, hits_append]
    exact Nat.add_le_add here rest

/-- What two parts make of the states that an expression hands on to them with different
results, together it is no more than the states it had. -/
private theorem hits_split_le {decider : Expr} {states : List Arguments}
    (divides : OpenFor states (decider.paths params) →
      hits values ((decider.eval params limit states).map (·.arguments)) ≤ hits values states)
    {left right : Constraint} (apart : left ≠ right) {first second : List (List Use)}
    (isOpen : OpenFor states (joinPaths (decider.paths params) (first ++ second)))
    (inhabited : ∃ path, path ∈ first) {before after : List Arguments}
    (one : OpenFor (Contract.argumentsWith left (decider.eval params limit states)) first →
      hits values before ≤
        hits values (Contract.argumentsWith left (decider.eval params limit states)))
    (two : OpenFor (Contract.argumentsWith right (decider.eval params limit states)) second →
      hits values after ≤
        hits values (Contract.argumentsWith right (decider.eval params limit states))) :
    hits values (before ++ after) ≤ hits values states := by
  obtain ⟨path, found⟩ := inhabited
  -- What the decider yields hits no more than the states, and each branch no more than its share.
  have decided := divides (isOpen.start ⟨path, List.mem_append_left _ found⟩)
  have handed : hits values
        (Contract.argumentsWith left (decider.eval params limit states)) +
      hits values (Contract.argumentsWith right (decider.eval params limit states)) ≤
        hits values ((decider.eval params limit states).map (·.arguments)) :=
    Contract.hits_handed_le apart _
  have follow : ∀ contract ∈ decider.eval params limit states,
      Follows (decider.paths params) states contract := decider.eval_follows states
  have rest (result : Constraint) := isOpen.rest result decider.paths_inhabited follow
  have onLeft := one ((rest left).mono fun _ found => List.mem_append_left _ found)
  have onRight := two ((rest right).mono fun _ found => List.mem_append_right _ found)
  rw [hits_append]
  omega

/-- Operands divide what a state admits: what ends the chain with one of them is not
handed on to the next. -/
private theorem hits_evalChain_le {stop : Constraint} (apart : stop ≠ stop.negate)
    (operands : List Expr)
    (each : ∀ operand ∈ operands, ∀ states, OpenFor states (operand.paths params) →
      hits values ((operand.eval params limit states).map (·.arguments)) ≤ hits values states)
    (live : List Arguments) (isOpen : OpenFor live (chainPaths params operands)) :
    hits values ((evalChain params limit stop operands live).map (·.arguments)) ≤
      hits values live := by
  induction operands generalizing live with
  | nil =>
    have kept : (evalChain params limit stop [] live).map (·.arguments) = live := by
      rw [evalChain, Contract.map_arguments_each]
    exact Nat.le_of_eq (congrArg (hits values) kept)
  | cons operand operands ih =>
    -- The chain ends here, or it goes on.
    have either : OpenFor live
        (joinPaths (operand.paths params) ([[]] ++ chainPaths params operands)) := isOpen
    have rest := ih (fun other found => each other (List.mem_cons_of_mem _ found))
      (Contract.argumentsWith stop.negate (operand.eval params limit live))
    rw [evalChain, List.map_append]
    exact hits_split_le (each operand List.mem_cons_self live) apart either
      ⟨[], List.mem_cons_self⟩ (fun _ => Nat.le_refl _) rest

/-- An expression divides what a state admits among its contracts. -/
theorem hits_eval_le (expr : Expr) (states : List Arguments)
    (isOpen : OpenFor states (expr.paths params)) :
    hits values ((expr.eval params limit states).map (·.arguments)) ≤ hits values states := by
  induction expr using byShape generalizing states with
  | chain op stop operands span stops ih =>
    rw [paths_chain stops] at isOpen
    rw [eval_chain stops]
    split
    next => exact hits_evalChain_le (BinaryOp.stop_ne_negate stops) operands ih states isOpen
    next => exact Nat.zero_le _
  | conditional condition whenTrue whenFalse span conditionIH trueIH falseIH =>
    have apart : Constraint.isTrue ≠ .isFalse := by decide
    simp only [eval]
    split
    next =>
      rw [List.map_append]
      exact hits_split_le (conditionIH states) apart isOpen whenTrue.paths_inhabited (trueIH _)
        (falseIH _)
    next => exact Nat.zero_le _
  | paren inner span ih =>
    simp only [eval]
    split
    next => exact ih states isOpen
    next => exact Nat.zero_le _
  | not operand span ih =>
    simp only [eval]
    split
    next =>
      -- Negation leaves contracts out and keeps the arguments of the others.
      have fewer : ((Contract.negated (operand.eval params limit states)).map
          (·.arguments)).Sublist ((operand.eval params limit states).map (·.arguments)) := by
        rw [Contract.negated, List.map_map]
        exact List.filter_sublist.map _
      exact Nat.le_trans (Arguments.hits_le_of_sublist fewer) (ih states isOpen)
    next => exact Nat.zero_le _
  | atomic expr isAtomic =>
    rw [paths_atomic isAtomic] at isOpen
    rw [eval_atomic isAtomic]
    split
    next =>
      apply expr.hits_yields_le
      intro state member
      exact isOpen.unknown state member _ List.mem_cons_self
    next => exact Nat.zero_le _

end Expr

/-! ## Statements -/

namespace Stmt

private theorem paths_inhabited (stmt : Stmt) : ∃ path, path ∈ stmt.paths params := by
  induction stmt using byChildren with
  | step stmt ih =>
    unfold paths
    split
    next only span => exact ih only List.mem_cons_self
    next condition whenTrue whenFalse span =>
      have ⟨start, startFound⟩ : ∃ path, path ∈ condition.paths params := condition.paths_inhabited
      obtain ⟨rest, restFound⟩ := ih whenTrue List.mem_cons_self
      exact ⟨start ++ rest, append_mem_joinPaths startFound (List.mem_append_left _ restFound)⟩
    next condition whenTrue span =>
      have ⟨start, found⟩ : ∃ path, path ∈ condition.paths params := condition.paths_inhabited
      exact ⟨start, mem_joinPaths_alone found⟩
    next value span => exact value.paths_inhabited
    next condition message span => exact condition.paths_inhabited
    next => exact ⟨[], List.mem_cons_self⟩

/-- A statement divides what a state admits among its contracts. -/
theorem hits_eval_le (stmt : Stmt) (states : List Arguments)
    (isOpen : OpenFor states (stmt.paths params)) :
    hits values ((stmt.eval params limit states).contracts.map (·.arguments)) ≤
      hits values states := by
  induction stmt using byChildren generalizing states with
  | step stmt ih =>
    unfold paths at isOpen
    unfold eval
    split
    next only span => exact ih only List.mem_cons_self states isOpen
    next condition whenTrue whenFalse span =>
      have apart : Constraint.isTrue ≠ .isFalse := by decide
      rw [List.map_append]
      exact Expr.hits_split_le (condition.hits_eval_le states) apart isOpen
        whenTrue.paths_inhabited (ih whenTrue List.mem_cons_self _)
        (ih whenFalse (by simp [children]) _)
    next condition whenTrue span =>
      -- Past the guard there is nothing yet.
      have either : OpenFor states
          (joinPaths (condition.paths params) ([[]] ++ whenTrue.paths params)) := isOpen
      have nothing (result : Constraint) : hits values [] ≤ hits values
          (Contract.argumentsWith result (condition.eval params limit states)) := Nat.zero_le _
      have branch := ih whenTrue List.mem_cons_self
        (Contract.argumentsWith .isTrue (condition.eval params limit states))
      have apart : Constraint.isFalse ≠ .isTrue := by decide
      exact Expr.hits_split_le (condition.hits_eval_le states) apart either
        ⟨[], List.mem_cons_self⟩ (fun _ => nothing .isFalse) branch
    next value span =>
      exact Nat.le_of_eq (congrArg (hits values) (Contract.map_arguments_each states .fail))
    next value span => exact value.hits_eval_le states isOpen
    next condition message span =>
      rw [Contract.map_arguments_each]
      exact Nat.le_trans (Contract.hits_argumentsWith_le _ _) (condition.hits_eval_le states isOpen)
    next => exact Nat.zero_le _

/-- Statements divide what a state admits among their contracts. -/
theorem hits_evalAll_le (stmts : List Stmt) (states : List Arguments)
    (isOpen : OpenFor states (allPaths params stmts)) :
    hits values ((evalAll params limit stmts states).map (·.arguments)) ≤ hits values states := by
  induction stmts using byGuards generalizing states with
  | nil => exact Nat.zero_le _
  | guard condition whenTrue span stmts ih =>
    have apart : Constraint.isTrue ≠ .isFalse := by decide
    rw [evalAll_guard, List.map_append]
    -- Past the guard the rest is evaluated, or nothing is.
    apply Expr.hits_split_le (condition.hits_eval_le states) apart isOpen
      whenTrue.paths_inhabited (whenTrue.hits_eval_le _)
    intro past
    split
    next => exact ih _ past
    next => exact Nat.zero_le _
  | last stmt stmts isLast =>
    rw [allPaths_last stmt stmts isLast] at isOpen
    rw [evalAll_last stmt stmts isLast]
    exact stmt.hits_eval_le states isOpen

end Stmt

/-- If no values hit more of the contracts than of the states, contracts of states that
exclude each other exclude each other. -/
theorem exclusive_of_hits_le {states : List Arguments} {contracts : List Contract}
    (exclusive : Arguments.Exclusive states)
    (divided : ∀ values, hits values (contracts.map (·.arguments)) ≤ hits values states) :
    Arguments.Exclusive (contracts.map (·.arguments)) := by
  rw [Arguments.exclusive_iff] at exclusive ⊢
  exact fun values => Nat.le_trans (divided values) (exclusive values)

end Tree

/-- Nothing is known at first, so a body without repeated tests is open for the first state. -/
theorem Body.RetestFree.openFor {params : List String} {body : Body}
    (free : body.RetestFree params) :
    Tree.OpenFor [Arguments.unknown params.length]
      (Tree.Stmt.allPaths params body.tree.statements) where
  retestFree := free
  unknown state member path found slot tested := by
    cases List.mem_singleton.mp member
    -- What is tested is named, and what is named is a parameter.
    have named := Tree.Stmt.allPaths_names body.tree.statements path found _ tested
    obtain ⟨stmt, _, named⟩ := (Tree.Stmt.anyNames_iff _).mp named
    have inside : slot < params.length := stmt.slot_lt_of_names named
    rw [Arguments.unknown, List.getElem?_replicate, if_pos inside]

/-- Contracts exclude each other. Of the contracts inferred from a valid body that tests no
parameter after using it, no values meet the arguments of two; and whatever is evaluated in
a valid body takes states that exclude each other, and know nothing of what it tests, to
contracts that exclude each other. -/
theorem Method.inferContracts_exclusive (method : Method) (body : Body)
    (present : method.body = some body) (accepted : body.validate = .ok ()) (maxStates : Nat) :
    (body.RetestFree (method.params.map (·.name)) →
      ∃ contracts, method.inferContracts maxStates = .ok contracts ∧
        Arguments.Exclusive (contracts.map (·.arguments))) ∧
    ∀ states, Arguments.Exclusive states →
      (∀ id : ExprId, id.index < body.exprs.size →
        Tree.OpenFor states ((body.exprTree id).paths (method.params.map (·.name))) →
          Answers (Fit (method.params.map (·.name)) states)
            ((method.interpreter body maxStates).evalExpr states id)
            fun contracts => Arguments.Exclusive (contracts.map (·.arguments))) ∧
      ∀ ids : List StmtId, (∀ id ∈ ids, id.index < body.stmts.size) →
        Tree.OpenFor states
            (Tree.Stmt.allPaths (method.params.map (·.name)) (ids.map body.stmtTree)) →
          Answers (Fit (method.params.map (·.name)) states)
            ((method.interpreter body maxStates).evalStmts states ids)
            fun contracts => Arguments.Exclusive (contracts.map (·.arguments)) := by
  have valid := body.valid_of_validate accepted
  refine ⟨fun free => ?_, fun states exclusive => ⟨fun id inside isOpen => ?_,
    fun ids inside isOpen => ?_⟩⟩
  · refine ⟨_, method.inferContracts_eq body present valid maxStates, ?_⟩
    -- The one state that evaluation starts from excludes no other.
    have alone : Arguments.Exclusive [Arguments.unknown method.params.length] :=
      List.pairwise_singleton _ _
    have isOpen := free.openFor
    rw [List.length_map] at isOpen
    exact Tree.exclusive_of_hits_le alone fun values => Tree.Stmt.hits_evalAll_le _ _ isOpen
  · apply ((method.interpreter body maxStates).evalExpr_agrees valid id inside states).answers
    exact Tree.exclusive_of_hits_le exclusive fun values =>
      (body.exprTree id).hits_eval_le states isOpen
  · apply ((method.interpreter body maxStates).evalStmts_agrees valid ids inside states).answers
    exact Tree.exclusive_of_hits_le exclusive fun values =>
      Tree.Stmt.hits_evalAll_le _ states isOpen

/-- The body `if (x == null && y) throw x; return z == true ? y : !z;`. -/
def Body.dividedChoice : Body where
  root := ⟨3⟩
  stmts := #[.throws ⟨0⟩ ⟨20, 28⟩, .ifElse ⟨4⟩ ⟨0⟩ none ⟨0, 28⟩, .returns (some ⟨9⟩) ⟨29, 55⟩,
    .block [⟨1⟩, ⟨2⟩] ⟨0, 55⟩]
  exprs := #[.name "x" ⟨4, 5⟩, .literal .null "null" ⟨9, 13⟩, .chain .equal [⟨0⟩, ⟨1⟩] ⟨4, 13⟩,
    .name "y" ⟨17, 18⟩, .chain .and [⟨2⟩, ⟨3⟩] ⟨4, 18⟩, .name "z" ⟨36, 37⟩,
    .literal .isTrue "true" ⟨41, 45⟩, .chain .equal [⟨5⟩, ⟨6⟩] ⟨36, 45⟩,
    .unary .not ⟨5⟩ ⟨52, 54⟩, .conditional ⟨7⟩ ⟨3⟩ ⟨8⟩ ⟨36, 54⟩]

def Method.dividedChoice : Method where
  name := "f"
  owner := none
  params := [⟨"x", "Object"⟩, ⟨"y", "boolean"⟩, ⟨"z", "boolean"⟩]
  annotations := []
  body := some .dividedChoice
  span := ⟨0, 55⟩

theorem Method.inferContracts_exclusive_dividedChoice :
    Body.dividedChoice.validate = .ok () ∧ Body.dividedChoice.RetestFree ["x", "y", "z"] ∧
      (∃ contracts, Method.dividedChoice.inferContracts 300 = .ok contracts ∧
        Arguments.Exclusive (contracts.map (·.arguments))) ∧
      Arguments.Exclusive [[.null, .isTrue, .any], [.notNull, .any, .any]] ∧
      Tree.OpenFor [[.null, .isTrue, .any], [.notNull, .any, .any]]
        ((Body.dividedChoice.exprTree ⟨9⟩).paths ["x", "y", "z"]) ∧
      ∃ contracts,
        (Method.dividedChoice.interpreter .dividedChoice 300).evalExpr
          [[.null, .isTrue, .any], [.notNull, .any, .any]] ⟨9⟩ = .ok contracts ∧
        contracts.length = 5 ∧ Arguments.Exclusive (contracts.map (·.arguments)) := by
  obtain ⟨inferred, evaluated⟩ :=
    Method.inferContracts_exclusive .dividedChoice .dividedChoice rfl rfl 300
  have free : Body.dividedChoice.RetestFree ["x", "y", "z"] := by decide
  -- No first argument is null and not null.
  have exclusive : Arguments.Exclusive [[.null, .isTrue, .any], [.notNull, .any, .any]] := by
    apply List.pairwise_pair.mpr
    intro values isNull isNotNull
    have one := isNull 0 .null rfl
    have two := isNotNull 0 .notNull rfl
    simp only [Constraint.admits, decide_eq_true_eq] at one two
    exact two one
  have isOpen : Tree.OpenFor [[.null, .isTrue, .any], [.notNull, .any, .any]]
      ((Body.dividedChoice.exprTree ⟨9⟩).paths ["x", "y", "z"]) := by
    have unknown : ∀ state ∈ [[Constraint.null, .isTrue, .any], [.notNull, .any, .any]],
        ∀ path ∈ (Body.dividedChoice.exprTree ⟨9⟩).paths ["x", "y", "z"], ∀ use ∈ path,
          use = .test use.slot → state[use.slot]? = some .any := by decide
    exact ⟨by decide, fun state member path found slot tested =>
      unknown state member path found _ tested rfl⟩
  have divided := (evaluated _ exclusive).1 ⟨9⟩ (by decide) isOpen
  exact ⟨rfl, free, inferred free, exclusive, isOpen, _, rfl, rfl, divided.2 _ rfl⟩

end MethodContracts
