import MethodContracts.Proofs.Inference.Bounds
import MethodContracts.Proofs.Inference.Flattening
import MethodContracts.Proofs.Inference.Totality

/-!
# The limit keeps the output small

Every node of a tree makes at most two contracts of each state it is evaluated under, and
there are at most as many of these states as the limit says. So the number of contracts is
linear in the size of the tree. Only `throw` does not ask for the limit, but it makes one
contract of each of its states, and branches share their states between them.

Without the limit every conditional may double the states of the one inside its condition.
-/
namespace MethodContracts

namespace Tree

namespace Expr

mutual

/-- The number of nodes of an expression. -/
def size : Expr → Nat
  | .name _ _ | .literal _ _ _ | .this _ | .lambda _ | .missing _ => 1
  | .field inner _ _ | .methodRef inner _ _ | .unary _ inner _ | .instanceOf inner _ _
  | .paren inner _ | .cast _ inner _ => inner.size + 1
  | .index left right _ | .assign left right _ => left.size + right.size + 1
  | .call callee arguments _ => callee.size + sizeAll arguments + 1
  | .new _ arguments _ => sizeAll arguments + 1
  | .chain _ operands _ => sizeAll operands + 1
  | .conditional condition whenTrue whenFalse _ =>
    condition.size + (whenTrue.size + whenFalse.size) + 1

/-- The number of nodes of expressions. -/
def sizeAll : List Expr → Nat
  | [] => 0
  | expr :: exprs => expr.size + sizeAll exprs

end

private theorem size_pos (expr : Expr) : 1 ≤ expr.size := by
  cases expr <;> simp only [size] <;> omega

end Expr

namespace Stmt

mutual

/-- The number of nodes of a statement, its expressions included. -/
def size : Stmt → Nat
  | .block statements _ => sizeAll statements + 1
  | .ifElse condition whenTrue none _ => condition.size + whenTrue.size + 1
  | .ifElse condition whenTrue (some whenFalse) _ =>
    condition.size + (whenTrue.size + whenFalse.size) + 1
  | .throws value _ | .returns (some value) _ | .local _ (some value) _ | .expr value _
  | .assert value none _ => value.size + 1
  | .assert condition (some message) _ => condition.size + message.size + 1
  | .while condition body _ => condition.size + body.size + 1
  | .returns none _ | .local _ none _ | .skipped _ _ | .empty _ => 1

/-- The number of nodes of statements. -/
def sizeAll : List Stmt → Nat
  | [] => 0
  | stmt :: stmts => stmt.size + sizeAll stmts

end

/-- A root that is a block is a node more than its statements. -/
theorem sizeAll_statements_le (stmt : Stmt) : sizeAll stmt.statements ≤ stmt.size := by
  cases stmt with
  | block statements span => exact Nat.le_succ _
  | _ => exact Nat.le_refl _

end Stmt

/-! ## Under the limit -/

private theorem length_le_of_heeded {most : Nat} {states : List Arguments}
    (heeded : Arguments.heeded (some most) states = true) : states.length ≤ most := by
  simp only [Arguments.heeded, Option.all_some, Bool.and_eq_true, decide_eq_true_eq] at heeded
  exact heeded.2

/-- No question has more than two answers. -/
theorem Atom.length_yield_le (atom : Atom) (state : Arguments) :
    (atom.yield state).length ≤ 2 := by
  cases atom with
  | use slot =>
    simp only [Atom.yield]
    split <;> simp
  | _ => simp [Atom.yield]

theorem Atom.length_yields_le (atom : Atom) (states : List Arguments) :
    (states.flatMap fun state => atom.yield state).length ≤ 2 * states.length := by
  induction states with
  | nil => exact Nat.le_refl 0
  | cons state states ih =>
    have here := atom.length_yield_le state
    rw [List.flatMap_cons, List.length_append, List.length_cons]
    omega

namespace Expr

variable (params : List String) (most : Nat)

/-- What ends at an operand is counted with its nodes, and so is what goes on to the next.
Only if there are no operands the states themselves are left at the end. -/
private theorem length_evalChain_le_size {stop : Constraint} (apart : stop ≠ stop.negate)
    (operands : List Expr)
    (each : ∀ operand ∈ operands, ∀ states : List Arguments,
      (operand.eval params (some most) states).length ≤ 2 * most * operand.size)
    (live : List Arguments) :
    (evalChain params (some most) stop operands live).length ≤
      live.length + 2 * most * sizeAll operands := by
  induction operands generalizing live with
  | nil => simp [evalChain, Contract.each]
  | cons operand operands ih =>
    have first := each operand List.mem_cons_self live
    have rest := ih (fun other member => each other (List.mem_cons_of_mem _ member))
      (Contract.argumentsWith stop.negate (operand.eval params (some most) live))
    -- A contract of the operand ends the chain or is evaluated further, but not both.
    have shared := split_le apart (operand.eval params (some most) live)
    simp only [evalChain, List.length_append, sizeAll, Nat.mul_add]
    simp only [Contract.argumentsWith, List.length_map] at shared rest ⊢
    omega

/-- An expression has at most two contracts for every state below the limit and every node. -/
theorem length_eval_le_size (expr : Expr) (states : List Arguments) :
    (expr.eval params (some most) states).length ≤ 2 * most * expr.size := by
  induction expr using byShape generalizing states with
  | chain op stop operands span stops each =>
    rw [eval_chain stops]
    split
    next heeded =>
      -- The states a chain starts with are counted with the node of the chain itself.
      have few := length_le_of_heeded heeded
      have whole := length_evalChain_le_size params most (BinaryOp.stop_ne_negate stops)
        operands each states
      simp only [size, Nat.mul_add]
      omega
    next => exact Nat.zero_le _
  | conditional condition whenTrue whenFalse span decides first second =>
    simp only [eval]
    split
    next =>
      have one := first (Contract.argumentsWith .isTrue (condition.eval params (some most) states))
      have two := second
        (Contract.argumentsWith .isFalse (condition.eval params (some most) states))
      simp only [List.length_append, size, Nat.mul_add]
      omega
    next => exact Nat.zero_le _
  | paren inner span within =>
    simp only [eval]
    split
    next =>
      have whole := within states
      simp only [size, Nat.mul_add]
      omega
    next => exact Nat.zero_le _
  | not operand span within =>
    simp only [eval]
    split
    next =>
      -- A negation only drops contracts.
      have negated := length_negated_le (operand.eval params (some most) states)
      have whole := within states
      simp only [size, Nat.mul_add]
      omega
    next => exact Nat.zero_le _
  | atomic expr atomic =>
    rw [eval_atomic atomic]
    split
    next heeded =>
      have few := length_le_of_heeded heeded
      calc _ ≤ 2 * states.length := (expr.atom params).length_yields_le states
        _ ≤ 2 * most * 1 := by omega
        _ ≤ 2 * most * expr.size := Nat.mul_le_mul_left _ expr.size_pos
    next => exact Nat.zero_le _

end Expr

namespace Stmt

variable (params : List String) (most : Nat)

/-- The states of the branches are contracts of the condition, so they are counted with its
nodes. -/
private theorem length_branches_le (condition : Expr) (states : List Arguments) :
    (Contract.argumentsWith .isTrue (condition.eval params (some most) states)).length +
      (Contract.argumentsWith .isFalse (condition.eval params (some most) states)).length ≤
        2 * most * condition.size :=
  Nat.le_trans (split_le (by decide) _) (condition.length_eval_le_size params most states)

/-- A statement may have one contract more for each of its states, as `throw` has. -/
theorem length_eval_le_size (stmt : Stmt) (states : List Arguments) :
    (stmt.eval params (some most) states).contracts.length ≤
      states.length + 2 * most * stmt.size := by
  induction stmt using byChildren generalizing states with
  | step stmt each =>
    cases stmt with
    | block statements span =>
      -- A block is looked into if it holds one statement.
      match statements with
      | [] | _ :: _ :: _ => exact Nat.zero_le _
      | [only] =>
        have whole := each only List.mem_cons_self states
        simp only [eval, size, sizeAll, Nat.mul_add]
        omega
    | ifElse condition whenTrue whenFalse span =>
      -- Together the branches start with no more states than the condition has contracts.
      have shared := length_branches_le params most condition states
      have first := each whenTrue List.mem_cons_self
        (Contract.argumentsWith .isTrue (condition.eval params (some most) states))
      cases whenFalse with
      | none =>
        simp only [eval, size, Nat.mul_add]
        omega
      | some whenFalse =>
        have second := each whenFalse (by simp [children])
          (Contract.argumentsWith .isFalse (condition.eval params (some most) states))
        simp only [eval, size, List.length_append, Nat.mul_add]
        omega
    | throws value span =>
      -- There is no limit here: every state counts for the one contract it makes.
      simp only [eval, Contract.each, List.length_map]
      exact Nat.le_add_right _ _
    | returns value span =>
      cases value with
      | none => exact Nat.zero_le _
      | some value =>
        have whole := value.length_eval_le_size params most states
        simp only [eval, size, Nat.mul_add]
        omega
    | assert condition message span =>
      have shared := length_branches_le params most condition states
      simp only [eval, Contract.each, List.length_map]
      cases message <;> simp only [size, Nat.mul_add] <;> omega
    | _ => exact Nat.zero_le _

/-- What a guard lets pass is not in its branch, so statements in a row have no more
contracts for each state than one statement. -/
theorem length_evalAll_le_size (stmts : List Stmt) (states : List Arguments) :
    (evalAll params (some most) stmts states).length ≤
      states.length + 2 * most * sizeAll stmts := by
  induction stmts using byGuards generalizing states with
  | nil => exact Nat.zero_le _
  | guard condition whenTrue span stmts later =>
    -- The branch and the rest share the contracts of the condition.
    have shared := length_branches_le params most condition states
    have first := whenTrue.length_eval_le_size params most
      (Contract.argumentsWith .isTrue (condition.eval params (some most) states))
    have rest := later (Contract.argumentsWith .isFalse (condition.eval params (some most) states))
    rw [evalAll_guard, List.length_append]
    simp only [sizeAll, size, Nat.mul_add]
    split
    next => omega
    next =>
      rw [List.length_nil]
      omega
  | last stmt stmts last =>
    -- Nothing is evaluated after a statement that hands no states on.
    have whole := stmt.length_eval_le_size params most states
    rw [evalAll_last stmt stmts last]
    simp only [sizeAll, Nat.mul_add]
    omega

end Stmt

/-! ## Without the limit -/

/-- The parameter with this number. -/
def paramName (number : Nat) : String := "p" ++ toString number

/-- The test whether the parameter with this number is null. -/
def Expr.isNull (number : Nat) : Expr :=
  .chain .equal [.name (paramName number) (.point 0), .literal .null "null" (.point 0)] (.point 0)

/-- Conditionals nested in conditions, in whose branches one more parameter is tested each. -/
def Expr.ladder : Nat → Expr
  | 0 => isNull 0
  | depth + 1 => .conditional (ladder depth) (isNull (depth + 1)) (isNull (depth + 1)) (.point 0)

namespace Expr

theorem size_ladder (depth : Nat) : (ladder depth).size = 7 * depth + 3 := by
  induction depth with
  | zero => rfl
  | succ depth ih =>
    have test : (isNull (depth + 1)).size = 3 := rfl
    rw [ladder, size, ih, test]
    omega

variable {params : List String} {most : Nat}

/-- There are so many contracts with each of the truth values as results. -/
structure Balanced (contracts : List Contract) (half : Nat) : Prop where
  whenTrue : (Contract.argumentsWith .isTrue contracts).length = half
  whenFalse : (Contract.argumentsWith .isFalse contracts).length = half
  length : contracts.length = 2 * half

theorem Balanced.append {first second : List Contract} {one two : Nat} (left : Balanced first one)
    (right : Balanced second two) : Balanced (first ++ second) (one + two) where
  whenTrue := by
    rw [Contract.argumentsWith_append, List.length_append, left.whenTrue, right.whenTrue]
  whenFalse := by
    rw [Contract.argumentsWith_append, List.length_append, left.whenFalse, right.whenFalse]
  length := by
    rw [List.length_append, left.length, right.length]
    omega

/-- A test against null has both answers for every state. -/
private theorem isNull_balanced {number : Nat} (named : paramName number ∈ params)
    {states : List Arguments} (heeded : Arguments.heeded (some most) states = true) :
    Balanced ((isNull number).eval params (some most) states) states.length := by
  obtain ⟨slot, found⟩ : ∃ slot, params.idxOf? (paramName number) = some slot := by
    cases found : params.idxOf? (paramName number) with
    | some slot => exact ⟨slot, rfl⟩
    | none => exact absurd named (List.idxOf?_eq_none_iff.mp found)
  have atom : (isNull number).atom params = .comparison slot .null .isTrue := by
    simp only [isNull, Expr.atom, comparison?, slot?, constant?, found, Literal.constraint?]
  rw [eval_atomic rfl, atom, heeded]
  simp only [ite_true]
  clear heeded
  -- One state after the other, each with a contract of either result.
  induction states with
  | nil => exact ⟨rfl, rfl, rfl⟩
  | cons state states ih =>
    rw [List.flatMap_cons, List.length_cons, Nat.add_comm]
    exact Balanced.append ⟨rfl, rfl, rfl⟩ ih

/-- Every level of the ladder doubles the number of contracts, unless there are too many. -/
private theorem ladder_balanced (depth : Nat) (named : ∀ number ≤ depth, paramName number ∈ params)
    (states : List Arguments) (present : 1 ≤ states.length)
    (few : states.length * 2 ^ depth ≤ most) :
    Balanced ((ladder depth).eval params (some most) states) (states.length * 2 ^ depth) := by
  obtain ⟨state, member⟩ := List.exists_mem_of_length_pos present
  have heeded := heeded_of_le member few
  induction depth with
  | zero =>
    simp only [Nat.pow_zero, Nat.mul_one]
    exact isNull_balanced (named 0 (Nat.le_refl 0)) heeded
  | succ depth ih =>
    have double : states.length * 2 ^ (depth + 1) = states.length * 2 ^ depth * 2 := by
      rw [Nat.pow_succ, Nat.mul_assoc]
    have condition := ih (fun number below => named number (by omega)) (by omega)
    -- Both branches test the next parameter, each under half of the contracts.
    have branch {states' : List Arguments} (half : states'.length = states.length * 2 ^ depth) :
        Balanced ((isNull (depth + 1)).eval params (some most) states')
          (states.length * 2 ^ depth) := by
      have positive : 1 ≤ states'.length := by
        rw [half]
        exact Nat.mul_pos present Nat.one_le_two_pow
      obtain ⟨state', member'⟩ := List.exists_mem_of_length_pos positive
      rw [← half]
      apply isNull_balanced (named (depth + 1) (Nat.le_refl _))
      have room : states'.length * 2 ^ 0 ≤ most := by omega
      exact heeded_of_le member' room
    have whole := (branch condition.whenTrue).append (branch condition.whenFalse)
    rw [double, Nat.mul_two]
    simpa only [ladder, eval, heeded, ite_true] using whole

end Expr

/-- The method body `return c;` for a ladder `c`. -/
def Stmt.ladder (depth : Nat) : Stmt :=
  .block [.returns (some (.ladder depth)) (.point 0)] (.point 0)

end Tree

/-- A method whose body is a ladder over all of its parameters. -/
def Method.ladder (depth : Nat) : Method where
  name := "ladder"
  owner := none
  params := (List.range (depth + 1)).map fun number => ⟨Tree.paramName number, "Object"⟩
  annotations := []
  body := some (Tree.Stmt.ladder depth).toBody
  span := .point 0

/-- Under a limit that is never reached the contracts are exponential in the depth. -/
theorem Method.length_ladder (depth maxStates : Nat) (enough : 2 ^ depth ≤ maxStates) :
    ∃ contracts, (Method.ladder depth).inferContracts maxStates = .ok contracts ∧
      contracts.length = 2 ^ (depth + 1) := by
  have inferred := (Method.ladder depth).inferContracts_toBody (Tree.Stmt.ladder depth) maxStates
  refine ⟨_, inferred, ?_⟩
  have named : ∀ number ≤ depth,
      Tree.paramName number ∈ (Method.ladder depth).params.map (·.name) := by
    intro number below
    simp only [ladder, List.map_map, List.mem_map, List.mem_range]
    exact ⟨number, by omega, rfl⟩
  -- The ladder doubles the states at each rung, and there is room for all of them.
  have balanced := Tree.Expr.ladder_balanced depth named
    [Arguments.unknown (Method.ladder depth).params.length] (Nat.le_refl 1)
    (by simpa using enough)
  rw [List.length_singleton, Nat.one_mul] at balanced
  rw [Nat.pow_succ, Nat.mul_comm]
  exact balanced.length

/-- The limit makes the number of contracts linear in the size of the tree: an expression has
at most two for every node and state up to the limit, statements may have one more for every
state they start with, and a method starts with one state. As long as the limit is not reached
the number is exponential, as the ladders show. -/
theorem Method.inferContracts_linear :
    (∀ (method : Method) (body : Body), method.body = some body → body.validate = .ok () →
      ∀ maxStates : Nat,
        (∃ contracts, method.inferContracts maxStates = .ok contracts ∧
          contracts.length ≤ 1 + 2 * maxStates * body.tree.size) ∧
        ∀ states : List Arguments,
          (∀ id : ExprId, id.index < body.exprs.size →
            Answers (Fit (method.params.map (·.name)) states)
              ((method.interpreter body maxStates).evalExpr states id)
              fun contracts => contracts.length ≤ 2 * maxStates * (body.exprTree id).size) ∧
          ∀ ids : List StmtId, (∀ id ∈ ids, id.index < body.stmts.size) →
            Answers (Fit (method.params.map (·.name)) states)
              ((method.interpreter body maxStates).evalStmts states ids)
              fun contracts => contracts.length ≤
                states.length + 2 * maxStates * Tree.Stmt.sizeAll (ids.map body.stmtTree)) ∧
    ∀ depth : Nat, ∃ body,
      (Method.ladder depth).body = some body ∧ body.validate = .ok () ∧
        body.tree.size = 7 * depth + 5 ∧
        ∀ maxStates, 2 ^ depth ≤ maxStates →
          ∃ contracts, (Method.ladder depth).inferContracts maxStates = .ok contracts ∧
            contracts.length = 2 ^ (depth + 1) := by
  constructor
  · intro method body present accepted maxStates
    have valid := body.valid_of_validate accepted
    constructor
    · have whole := Tree.Stmt.length_evalAll_le_size (method.params.map (·.name)) maxStates
        body.tree.statements [Arguments.unknown method.params.length]
      -- The statements of the body are no larger than the body.
      have parts := Nat.mul_le_mul_left (2 * maxStates) body.tree.sizeAll_statements_le
      rw [List.length_singleton] at whole
      exact ⟨_, method.inferContracts_eq body present valid maxStates, by omega⟩
    · intro states
      constructor
      · intro id inside
        apply ((method.interpreter body maxStates).evalExpr_agrees valid id inside states).answers
        exact (body.exprTree id).length_eval_le_size _ _ states
      · intro ids inside
        apply ((method.interpreter body maxStates).evalStmts_agrees valid ids inside states).answers
        exact Tree.Stmt.length_evalAll_le_size _ _ (ids.map body.stmtTree) states
  · intro depth
    obtain ⟨valid, tree⟩ := (Tree.Stmt.ladder depth).toBody_valid
    refine ⟨_, rfl, Body.validate_of_valid _ valid, ?_, fun maxStates enough =>
      Method.length_ladder depth maxStates enough⟩
    rw [tree]
    simp only [Tree.Stmt.ladder, Tree.Stmt.size, Tree.Stmt.sizeAll, Tree.Expr.size_ladder]

/-- Of the three states `throw` makes three contracts, although the limit is two. -/
theorem Method.inferContracts_linear_guardedChoice :
    Body.guardedChoice.validate = .ok () ∧ Body.guardedChoice.tree.size = 14 ∧
      (∃ contracts, Method.guardedChoice.inferContracts 1 = .ok contracts ∧
        contracts.length ≤ 1 + 2 * 1 * 14) ∧
      (∃ contracts,
        (Method.guardedChoice.interpreter .guardedChoice 2).evalExpr
          [[.any, .any], [.notNull, .isTrue]] ⟨2⟩ = .ok contracts ∧
        contracts.length = 4 ∧ contracts.length ≤ 2 * 2 * 3) ∧
      (∃ contracts,
        (Method.guardedChoice.interpreter .guardedChoice 2).evalStmts
          [[.any, .any], [.notNull, .isTrue], [.null, .isFalse]] [⟨0⟩] = .ok contracts ∧
        contracts.length = 3 ∧ contracts.length ≤ 3 + 2 * 2 * 2) ∧
      ∃ contracts, (Method.ladder 3).inferContracts 8 = .ok contracts ∧
        contracts.length = 16 := by
  obtain ⟨linear, exponential⟩ := Method.inferContracts_linear
  have guarded := linear .guardedChoice .guardedChoice rfl rfl
  have expr := (guarded 2).2 [[.any, .any], [.notNull, .isTrue]] |>.1 ⟨2⟩ (by decide)
  have stmts := (guarded 2).2 [[.any, .any], [.notNull, .isTrue], [.null, .isFalse]] |>.2 [⟨0⟩]
    (by decide)
  obtain ⟨body, _, _, _, many⟩ := exponential 3
  exact ⟨rfl, rfl, (guarded 1).1, ⟨_, rfl, rfl, expr.2 _ rfl⟩, ⟨_, rfl, rfl, stmts.2 _ rfl⟩,
    many 8 (by decide)⟩

end MethodContracts
