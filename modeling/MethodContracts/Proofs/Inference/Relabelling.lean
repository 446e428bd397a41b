import Mathlib.Data.Set.Function
import MethodContracts.Proofs.Inference.Branching
import MethodContracts.Proofs.Inference.Declaration
import MethodContracts.Proofs.Method.Renaming

/-!
# Renaming and reordering parameters

Evaluation gets from a name to a slot in one way only, by the place of the name among the
parameters. So it does not matter what the parameters are called as long as names that
differ still do, and when they are put in another order the slots of all arguments are put
in that order as well, and nothing else changes.
-/
namespace MethodContracts

/-! ## Two evaluations -/

namespace Contract

variable (move : Arguments → Arguments)

/-- The contract for other arguments, with the same result. -/
def mapArguments (contract : Contract) : Contract := ⟨move contract.arguments, contract.result⟩

private theorem argumentsWith_map (result : Constraint) (contracts : List Contract) :
    argumentsWith result (contracts.map (mapArguments move)) =
      (argumentsWith result contracts).map move := by
  simp only [argumentsWith, List.filter_map, List.map_map]
  rfl

private theorem each_map (states : List Arguments) (result : Constraint) :
    each (states.map move) result = (each states result).map (mapArguments move) := by
  simp only [each, List.map_map]
  rfl

private theorem negated_map (contracts : List Contract) :
    negated (contracts.map (mapArguments move)) = (negated contracts).map (mapArguments move) := by
  simp only [negated, List.filter_map, List.map_map]
  rfl

end Contract

private theorem Arguments.heeded_map (move : Arguments → Arguments) (limit : Option Nat)
    (states : List Arguments) : heeded limit (states.map move) = heeded limit states := by
  simp only [heeded, List.length_map, List.isEmpty_map]

/-- The question about the slot that takes the place of its slot. -/
def Tree.Atom.placed (place : Nat → Nat) : Tree.Atom → Tree.Atom
  | .comparison slot constraint whenEqual => .comparison (place slot) constraint whenEqual
  | .typeTest slot => .typeTest (place slot)
  | .constant constraint => .constant constraint
  | .use slot => .use (place slot)
  | .unknown => .unknown

/-- The names of the right body are those of the left renamed, and `move` takes a full
state to the one that the right evaluation sees in its place: what is in a slot on the left
is in the place of the slot on the right. -/
structure Relabels (left right : Interpreter) (rename : String → String) (place : Nat → Nat)
    (move : Arguments → Arguments) : Prop where
  body : right.body = left.body.renamed rename
  resolves : ∀ word, left.body.Says word →
    right.params.idxOf? (rename word) = (left.params.idxOf? word).map place
  get : ∀ state : Arguments, state.length = left.params.length →
    ∀ slot < left.params.length, (move state)[place slot]? = state[slot]?
  set : ∀ state : Arguments, state.length = left.params.length →
    ∀ slot < left.params.length, ∀ constraint,
      move (state.set slot constraint) = (move state).set (place slot) constraint

/-- Every state has exactly the slots of the parameters. -/
def Full (params : List String) (states : List Arguments) : Prop :=
  ∀ state ∈ states, state.length = params.length

/-- What an expression hands on is as full as what it is given. -/
theorem Full.handed {params : List String} {states : List Arguments}
    (full : Full params states) (limit : Option Nat) (expr : Tree.Expr) (result : Constraint) :
    Full params (Contract.argumentsWith result (expr.eval params limit states)) := by
  have kept : KeptByPins fun state => state.length = params.length := by
    intro state slot constraint _ same
    rw [List.length_set, same]
  exact Contract.forall_handed (expr.eval_preserves kept states full) result

/-- On the right the same contracts come from states that are moved, moved as well. -/
def MovesExpr (left right : Interpreter) (move : Arguments → Arguments) (id : ExprId) : Prop :=
  ∀ limit states, Full left.params states →
    (right.body.exprTree id).eval right.params limit (states.map move) =
      ((left.body.exprTree id).eval left.params limit states).map (Contract.mapArguments move)

/-- The same for a statement and the states that it hands on. -/
def MovesStmt (left right : Interpreter) (move : Arguments → Arguments) (id : StmtId) : Prop :=
  ∀ limit states, Full left.params states →
    let step := (left.body.stmtTree id).eval left.params limit states
    (right.body.stmtTree id).eval right.params limit (states.map move) =
      ⟨step.contracts.map (Contract.mapArguments move), step.next.map (List.map move)⟩

namespace Relabels

variable {left right : Interpreter} {rename : String → String} {place : Nat → Nat}
  {move : Arguments → Arguments} (relabels : Relabels left right rename place move)
include relabels

theorem yield (atom : Tree.Atom) (inside : ∀ use ∈ atom.use?, use.slot < left.params.length)
    (state : Arguments) (full : state.length = left.params.length) :
    (atom.placed place).yield (move state) =
      (atom.yield state).map (Contract.mapArguments move) := by
  cases atom with
  | comparison slot | typeTest slot =>
    simp only [Tree.Atom.placed, Tree.Atom.yield, List.map_cons, List.map_nil,
      Contract.mapArguments, relabels.set state full slot (inside _ rfl)]
  | use slot =>
    have bound : slot < left.params.length := inside _ rfl
    simp only [Tree.Atom.placed, Tree.Atom.yield, relabels.get state full slot bound]
    -- The right state knows in its slot what the left state knows.
    cases state[slot]? with
    | none => rfl
    | some known =>
      cases known <;> simp only [List.map_cons, List.map_nil, Contract.mapArguments,
        relabels.set state full slot bound]
  | constant | unknown => rfl

variable (valid : left.body.Valid)
include valid

theorem exprTree_right (id : ExprId) (expr : Expr) (found : left.body.expr? id = some expr) :
    right.body.exprTree id = (expr.renamed rename).toTree right.body.exprTree := by
  rw [relabels.body]
  exact (left.body.renamed rename).exprTree_eq (valid.renamed rename) id _
    (left.body.expr?_renamed rename id expr found)

theorem slot? (id : ExprId) (inside : id.index < left.body.exprs.size) :
    (right.body.exprTree id).slot? right.params =
      ((left.body.exprTree id).slot? left.params).map place := by
  obtain ⟨expr, found⟩ := left.body.exists_expr? id inside
  rw [relabels.exprTree_right valid id expr found, left.body.exprTree_eq valid id expr found]
  cases expr with
  | name word span =>
    have said : left.body.Says word := ⟨span, Array.mem_of_getElem? found⟩
    exact relabels.resolves word said
  | _ => rfl

theorem constant? (id : ExprId) (inside : id.index < left.body.exprs.size) :
    (right.body.exprTree id).constant? = (left.body.exprTree id).constant? := by
  obtain ⟨expr, found⟩ := left.body.exists_expr? id inside
  rw [relabels.exprTree_right valid id expr found, left.body.exprTree_eq valid id expr found]
  cases expr <;> rfl

theorem comparison? (one two : ExprId) (oneInside : one.index < left.body.exprs.size)
    (twoInside : two.index < left.body.exprs.size) :
    (right.body.exprTree one).comparison? right.params (right.body.exprTree two) =
      ((left.body.exprTree one).comparison? left.params (left.body.exprTree two)).map
        fun pinned => (place pinned.1, pinned.2) := by
  simp only [Tree.Expr.comparison?, relabels.slot? valid one oneInside,
    relabels.slot? valid two twoInside, relabels.constant? valid one oneInside,
    relabels.constant? valid two twoInside]
  -- Which of the two is a parameter and which a literal is the same on both sides.
  cases (left.body.exprTree one).slot? left.params <;>
    cases (left.body.exprTree two).slot? left.params <;>
    cases (left.body.exprTree one).constant? <;>
    cases (left.body.exprTree two).constant? <;> rfl

/-- An atomic expression asks the same question on both sides. -/
theorem atom (id : ExprId) (inside : id.index < left.body.exprs.size) :
    (right.body.exprTree id).atom right.params =
      ((left.body.exprTree id).atom left.params).placed place := by
  obtain ⟨expr, found⟩ := left.body.exists_expr? id inside
  have part (child : ExprId) (member : child ∈ expr.children) :
      child.index < left.body.exprs.size := by
    have before := valid.expr_lt id.index expr found child member
    omega
  rw [relabels.exprTree_right valid id expr found, left.body.exprTree_eq valid id expr found]
  cases expr with
  | name word span =>
    have said : left.body.Says word := ⟨span, Array.mem_of_getElem? found⟩
    simp only [Expr.renamed, Expr.toTree, Tree.Expr.atom, relabels.resolves word said]
    cases left.params.idxOf? word <;> rfl
  | instanceOf operand type span =>
    have tested := relabels.slot? valid operand (part operand List.mem_cons_self)
    simp only [Expr.renamed, Expr.toTree, Tree.Expr.atom, tested]
    cases (left.body.exprTree operand).slot? left.params <;> rfl
  | literal kind text span =>
    simp only [Expr.renamed, Expr.toTree, Tree.Expr.atom]
    cases kind.constraint? <;> rfl
  | chain op operands span =>
    -- Only two operands are compared.
    rcases operands with _ | ⟨one, _ | ⟨two, _ | ⟨other, others⟩⟩⟩
    · cases op <;> rfl
    · cases op <;> rfl
    · have compared := relabels.comparison? valid one two (part one List.mem_cons_self)
        (part two (by simp [Expr.children]))
      simp only [Expr.renamed, Expr.toTree, List.map_cons, List.map_nil]
      cases op with
      | equal | notEqual =>
        simp only [Tree.Expr.atom, compared]
        cases (left.body.exprTree one).comparison? left.params (left.body.exprTree two) <;> rfl
      | _ => rfl
    · cases op <;> rfl
  | _ => rfl

/-- Atomic expressions yield the same of full states, moved. -/
theorem yields (id : ExprId) (inside : id.index < left.body.exprs.size) (states : List Arguments)
    (full : Full left.params states) :
    ((states.map move).flatMap fun state =>
        ((right.body.exprTree id).atom right.params).yield state) =
      (states.flatMap fun state => ((left.body.exprTree id).atom left.params).yield state).map
        (Contract.mapArguments move) := by
  rw [relabels.atom valid id inside, List.flatMap_map, List.map_flatMap]
  apply List.flatMap_congr
  intro state member
  exact relabels.yield _ (fun use used => Tree.Expr.lt_of_use? used) state (full state member)

omit relabels valid in
theorem evalChain (limit : Option Nat) (stop : Constraint) (operands : List ExprId)
    (each : ∀ operand ∈ operands, MovesExpr left right move operand) (live : List Arguments)
    (full : Full left.params live) :
    Tree.Expr.evalChain right.params limit stop (operands.map right.body.exprTree)
        (live.map move) =
      (Tree.Expr.evalChain left.params limit stop (operands.map left.body.exprTree) live).map
        (Contract.mapArguments move) := by
  -- The states that are still live change from operand to operand.
  induction operands generalizing live with
  | nil => exact Contract.each_map move live stop.negate
  | cons operand operands ih =>
    have first := each operand List.mem_cons_self limit live full
    have later := ih (fun other member => each other (List.mem_cons_of_mem _ member)) _
      (full.handed limit (left.body.exprTree operand) stop.negate)
    simp only [List.map_cons, Tree.Expr.evalChain, first, Contract.argumentsWith_map, later,
      List.map_append, List.filter_map]
    rfl

theorem eval_atomic (id : ExprId) (inside : id.index < left.body.exprs.size)
    (atomic : (left.body.exprTree id).isAtomic = true)
    (rightAtomic : (right.body.exprTree id).isAtomic = true) : MovesExpr left right move id := by
  intro limit states full
  rw [Tree.Expr.eval_atomic atomic, Tree.Expr.eval_atomic rightAtomic, Arguments.heeded_map]
  split
  next => exact relabels.yields valid id inside states full
  next => rfl

/-- From full states that are moved come the same contracts, moved. -/
theorem eval (id : ExprId) (inside : id.index < left.body.exprs.size) :
    MovesExpr left right move id := by
  -- By induction on the arena: what an expression hands on is full again.
  refine Body.exprs_induction valid ?_ id inside
  intro id expr found each
  have tree := left.body.exprTree_eq valid id expr found
  have rightTree := relabels.exprTree_right valid id expr found
  have atomic := relabels.eval_atomic valid id (left.body.lt_of_expr? id expr found)
  rw [tree, rightTree] at atomic
  cases expr with
  | chain op operands span =>
    cases stops : op.stop? with
    | none =>
      have silent : op.stop?.isNone = true := by rw [stops, Option.isNone_none]
      exact atomic silent silent
    | some stop =>
      intro limit states full
      rw [tree, rightTree]
      simp only [Expr.renamed, Expr.toTree]
      rw [Tree.Expr.eval_chain stops, Tree.Expr.eval_chain stops, Arguments.heeded_map]
      split
      next => exact evalChain limit stop operands each states full
      next => rfl
  | conditional condition whenTrue whenFalse span =>
    intro limit states full
    have decides := each condition List.mem_cons_self limit states full
    have first := each whenTrue (by simp [Expr.children]) limit _
      (full.handed limit (left.body.exprTree condition) .isTrue)
    have second := each whenFalse (by simp [Expr.children]) limit _
      (full.handed limit (left.body.exprTree condition) .isFalse)
    rw [tree, rightTree]
    simp only [Expr.renamed, Expr.toTree, Tree.Expr.eval, Arguments.heeded_map, decides,
      Contract.argumentsWith_map, first, second]
    split
    next => exact (List.map_append ..).symm
    next => rfl
  | paren inner span =>
    intro limit states full
    rw [tree, rightTree]
    simp only [Expr.renamed, Expr.toTree, Tree.Expr.eval, Arguments.heeded_map,
      each inner List.mem_cons_self limit states full]
    split <;> rfl
  | unary op operand span =>
    cases op with
    | not =>
      intro limit states full
      rw [tree, rightTree]
      simp only [Expr.renamed, Expr.toTree, Tree.Expr.eval, Arguments.heeded_map,
        each operand List.mem_cons_self limit states full, Contract.negated_map]
      split <;> rfl
    | _ => exact atomic rfl rfl
  | _ => exact atomic rfl rfl

theorem stmtTree_right (id : StmtId) (stmt : Stmt) (found : left.body.stmt? id = some stmt) :
    right.body.stmtTree id = stmt.toTree right.body.exprTree right.body.stmtTree := by
  rw [relabels.body]
  exact (left.body.renamed rename).stmtTree_eq (valid.renamed rename) id stmt found

omit valid in
/-- Renaming leaves statements alone, and only they decide what always returns. -/
theorem alwaysReturnsWithin (depth : Nat) :
    right.alwaysReturnsWithin depth = left.alwaysReturnsWithin depth := by
  have stmts : right.stmt = left.stmt := by
    funext id
    simp only [Interpreter.stmt, relabels.body]
    rfl
  induction depth with
  | zero => rfl
  | succ depth ih =>
    funext id
    simp only [Interpreter.alwaysReturnsWithin, stmts, ih]

theorem alwaysReturns (id : StmtId) (inside : id.index < left.body.stmts.size) :
    (right.body.stmtTree id).alwaysReturns = (left.body.stmtTree id).alwaysReturns := by
  have rightValid : right.body.Valid := relabels.body ▸ valid.renamed rename
  have rightInside : id.index < right.body.stmts.size := relabels.body ▸ inside
  have outcome := right.alwaysReturnsWithin_eq rightValid (id.index + 1) id rightInside (by omega)
  rw [relabels.alwaysReturnsWithin,
    left.alwaysReturnsWithin_eq valid (id.index + 1) id inside (by omega)] at outcome
  exact (Except.ok.inj outcome).symm

/-- What a statement yields of states that are moved is moved, and so is what it hands on. -/
theorem evalStmt (id : StmtId) (inside : id.index < left.body.stmts.size) :
    MovesStmt left right move id := by
  refine Body.stmts_induction valid ?_ id inside
  intro id stmt found each limit states full
  have evaluated (value : ExprId) (member : value ∈ stmt.childExprs) :=
    have inside := valid.stmt_expr_lt id.index stmt found value member
    relabels.eval valid value inside limit states full
  rw [left.body.stmtTree_eq valid id stmt found, relabels.stmtTree_right valid id stmt found]
  cases stmt with
  | block statements span =>
    -- A block is looked into if it holds one statement.
    match statements with
    | [] | _ :: _ :: _ => rfl
    | [only] =>
      simp only [Stmt.toTree, List.map_cons, List.map_nil, Tree.Stmt.eval,
        each only List.mem_cons_self limit states full]
      rfl
  | ifElse condition whenTrue whenFalse span =>
    have decides := evaluated condition List.mem_cons_self
    have first := each whenTrue List.mem_cons_self limit _
      (full.handed limit (left.body.exprTree condition) .isTrue)
    cases whenFalse with
    | none =>
      -- Both sides go on past the guard or neither does.
      have branch : whenTrue.index < left.body.stmts.size := by
        have before := valid.stmt_lt id.index _ found whenTrue List.mem_cons_self
        have placed := left.body.lt_of_stmt? id _ found
        omega
      simp only [Stmt.toTree, Option.map_none, Tree.Stmt.eval, decides,
        Contract.argumentsWith_map, first, relabels.alwaysReturns valid whenTrue branch]
      cases (left.body.stmtTree whenTrue).alwaysReturns <;> rfl
    | some whenFalse =>
      have second := each whenFalse (by simp [Stmt.childStmts]) limit _
        (full.handed limit (left.body.exprTree condition) .isFalse)
      simp only [Stmt.toTree, Option.map_some, Tree.Stmt.eval, decides,
        Contract.argumentsWith_map, first, second, List.map_append]
      rfl
  | throws value span =>
    simp only [Stmt.toTree, Tree.Stmt.eval, Contract.each_map]
    rfl
  | returns value span =>
    cases value with
    | none => rfl
    | some value =>
      simp only [Stmt.toTree, Option.map_some, Tree.Stmt.eval,
        evaluated value List.mem_cons_self]
      rfl
  | assert condition message span =>
    simp only [Stmt.toTree, Tree.Stmt.eval, evaluated condition List.mem_cons_self,
      Contract.argumentsWith_map, Contract.each_map]
    rfl
  | _ => rfl

theorem evalAll (limit : Option Nat) (ids : List StmtId)
    (inside : ∀ id ∈ ids, id.index < left.body.stmts.size) (states : List Arguments)
    (full : Full left.params states) :
    Tree.Stmt.evalAll right.params limit (ids.map right.body.stmtTree) (states.map move) =
      (Tree.Stmt.evalAll left.params limit (ids.map left.body.stmtTree) states).map
        (Contract.mapArguments move) := by
  induction ids generalizing states with
  | nil => rfl
  | cons id ids ih =>
    have first := relabels.evalStmt valid id (inside id List.mem_cons_self) limit states full
    simp only [List.map_cons, Tree.Stmt.evalAll, first]
    cases next : ((left.body.stmtTree id).eval left.params limit states).next with
    | none => rfl
    | some live =>
      -- States are handed on past a guard only, and those are full again.
      obtain ⟨condition, whenTrue, span, _, rfl⟩ := Tree.Stmt.next_eq_some _ states live next
      have later := ih (fun other member => inside other (List.mem_cons_of_mem _ member)) _
        (full.handed limit condition .isFalse)
      simp only [Option.map_some, later, List.map_append]

end Relabels

/-! ## Methods -/

/-- Where one method relabels the other, the contracts of the one are moved to those of the
other, in the same order. -/
theorem Method.inferContracts_moved (method other : Method) (body body' : Body)
    (present : method.body = some body) (present' : other.body = some body')
    (valid : body.Valid) (maxStates : Nat) {rename : String → String} {place : Nat → Nat}
    {move : Arguments → Arguments}
    (relabels : Relabels (method.interpreter body maxStates) (other.interpreter body' maxStates)
      rename place move)
    (start : move (Arguments.unknown method.params.length) =
      Arguments.unknown other.params.length) :
    ∃ contracts, method.inferContracts maxStates = .ok contracts ∧
      other.inferContracts maxStates = .ok (contracts.map (Contract.mapArguments move)) := by
  refine ⟨_, method.inferContracts_eq body present valid maxStates, ?_⟩
  have renamed : body' = body.renamed rename := relabels.body
  have valid' : body'.Valid := renamed ▸ valid.renamed rename
  obtain ⟨ids, found, inside, trees⟩ := body.statements?_eq valid
  obtain ⟨ids', found', _, trees'⟩ := body'.statements?_eq valid'
  -- The statements of the renamed body are in the same places.
  have same : ids' = ids := by
    rw [renamed] at found'
    exact Option.some.inj (found'.symm.trans found)
  subst same
  have full : Full (method.interpreter body maxStates).params
      [Arguments.unknown method.params.length] := by
    intro state member
    cases List.mem_singleton.mp member
    simp [Arguments.unknown, interpreter]
  have moved := relabels.evalAll valid (some maxStates) ids' inside _ full
  rw [List.map_singleton, start] at moved
  rw [other.inferContracts_eq body' present' valid' maxStates, ← trees', ← trees]
  exact congrArg Except.ok moved

private theorem idxOf?_map_of_injOn {rename : String → String} {words : List String} {word : String}
    (apart : ∀ other ∈ words, rename other = rename word → other = word) :
    (words.map rename).idxOf? (rename word) = words.idxOf? word := by
  induction words with
  | nil => rfl
  | cons other words ih =>
    obtain ⟨here, later⟩ := List.forall_mem_cons.mp apart
    have same : (rename other == rename word) = (other == word) := by
      rw [Bool.eq_iff_iff, beq_iff_eq, beq_iff_eq]
      exact ⟨here, congrArg rename⟩
    rw [List.map_cons, List.idxOf?_cons, List.idxOf?_cons, same, ih later]

/-- A renaming under which names stay apart relabels nothing but the names. -/
theorem Relabels.of_renaming (method : Method) (body : Body) (maxStates : Nat)
    (rename : String → String)
    (apart : Set.InjOn rename {word | word ∈ method.params.map (·.name) ∨ body.Says word}) :
    Relabels (method.interpreter body maxStates)
      ((method.renamed rename).interpreter (body.renamed rename) maxStates) rename id id where
  body := rfl
  resolves word said := by
    have names : ((method.renamed rename).interpreter (body.renamed rename) maxStates).params =
        (method.params.map (·.name)).map rename := by
      simp only [Method.interpreter, Method.renamed, List.map_map]
      rfl
    rw [names, idxOf?_map_of_injOn, Option.map_id]
    · rfl
    · intro other member equal
      exact apart (Or.inl member) (Or.inr said) equal
  get _ _ _ _ := rfl
  set _ _ _ _ _ := rfl

/-- Another order of the parameters relabels the slots. -/
theorem Relabels.of_order (method : Method) (body : Body) (maxStates : Nat) (order : List Nat)
    (whole : order.Perm (List.range method.params.length))
    (distinct : (method.params.map (·.name)).Nodup) :
    Relabels (method.interpreter body maxStates)
      ((method.reordered order).interpreter body maxStates) id (order.idxOf ·) (pick order) where
  body := body.renamed_id.symm
  resolves word _ := by
    have names : ((method.reordered order).interpreter body maxStates).params =
        pick order (method.params.map (·.name)) := by
      simp only [Method.interpreter, Method.reordered, pick, List.map_filterMap,
        List.getElem?_map]
    rw [names]
    exact idxOf?_pick (by rwa [List.length_map]) distinct word
  -- A whole order picks each slot once, so its place in the order can be read back.
  get state full slot inside := by
    have length : state.length = method.params.length := full.trans (List.length_map _)
    exact pick_idxOf (by rwa [length]) (by rwa [full])
  set state full slot inside constraint := by
    have length : state.length = method.params.length := full.trans (List.length_map _)
    exact pick_set (by rwa [length]) (by rwa [full]) constraint

theorem pick_unknown {order : List Nat} {count : Nat} (whole : order.Perm (List.range count)) :
    pick order (Arguments.unknown count) = Arguments.unknown count := by
  apply List.perm_replicate.mp
  apply pick_perm
  rwa [Arguments.unknown, List.length_replicate]

/-- Inference commutes with renaming parameters, as long as names that are said stay apart,
and with putting parameters with different names in another order: the first changes
nothing, the second puts the arguments of every contract in that order. -/
theorem Method.inferContracts_relabelled (method : Method) (body : Body)
    (present : method.body = some body) (accepted : body.validate = .ok ()) (maxStates : Nat) :
    ∃ contracts, method.inferContracts maxStates = .ok contracts ∧
      (∀ rename : String → String,
        Set.InjOn rename {word | word ∈ method.params.map (·.name) ∨ body.Says word} →
          (method.renamed rename).inferContracts maxStates = .ok contracts) ∧
      ∀ order : List Nat, order.Perm (List.range method.params.length) →
        (method.params.map (·.name)).Nodup →
          (method.reordered order).inferContracts maxStates =
            .ok (contracts.map fun contract =>
              ⟨pick order contract.arguments, contract.result⟩) := by
  have valid := body.valid_of_validate accepted
  have inferred := method.inferContracts_eq body present valid maxStates
  refine ⟨_, inferred, fun rename apart => ?_, fun order whole distinct => ?_⟩
  · have presentRenamed : (method.renamed rename).body = some (body.renamed rename) := by
      simp only [renamed, present, Option.map_some]
    have start : id (Arguments.unknown method.params.length) =
        Arguments.unknown (method.renamed rename).params.length := by
      simp only [renamed, List.length_map, id_eq]
    obtain ⟨contracts, before, after⟩ := method.inferContracts_moved (method.renamed rename) body
      (body.renamed rename) present presentRenamed valid maxStates
      (Relabels.of_renaming method body maxStates rename apart) start
    -- A renaming leaves the slots where they are.
    have same : Contract.mapArguments id = id := rfl
    rw [same, List.map_id] at after
    exact after.trans (before.symm.trans inferred)
  · have start : pick order (Arguments.unknown method.params.length) =
        Arguments.unknown (method.reordered order).params.length := by
      rw [pick_unknown whole, reordered, (pick_perm whole).length_eq]
    obtain ⟨contracts, before, after⟩ := method.inferContracts_moved (method.reordered order) body
      body present present valid maxStates
      (Relabels.of_order method body maxStates order whole distinct) start
    rw [before] at inferred
    cases inferred
    exact after

def Method.threeChoices : Method where
  name := "f"
  owner := none
  params := [⟨"x", "Object"⟩, ⟨"y", "boolean"⟩, ⟨"z", "boolean"⟩]
  annotations := []
  body := some .threeChoices
  span := ⟨0, 34⟩

/-- Only `x` gets another name, which is none of the others. -/
def renameFirst (word : String) : String := if word = "x" then "key" else word

theorem renameFirst_injOn :
    Set.InjOn renameFirst
      {word | word ∈ Method.threeChoices.params.map (·.name) ∨ Body.threeChoices.Says word} := by
  have known : ∀ word, word ∈ Method.threeChoices.params.map (·.name) ∨
      Body.threeChoices.Says word → word = "x" ∨ word = "y" ∨ word = "z" := by
    rintro word (param | ⟨span, said⟩)
    · simpa [Method.threeChoices] using param
    · have nodes : word = "x" ∧ span = ⟨4, 5⟩ ∨ word = "y" ∧ span = ⟨22, 23⟩ ∨
          word = "z" ∧ span = ⟨32, 33⟩ := by
        simpa [Body.threeChoices] using said
      exact nodes.imp And.left (Or.imp And.left And.left)
  intro one here other there same
  rcases known one here with rfl | rfl | rfl <;> rcases known other there with rfl | rfl | rfl <;>
    first | rfl | exact absurd same (by decide)

theorem Method.inferContracts_relabelled_threeChoices :
    Body.threeChoices.validate = .ok () ∧
      Method.threeChoices.inferContracts 300 = .ok
        [⟨[.null, .isTrue, .any], .isTrue⟩, ⟨[.null, .isFalse, .any], .isFalse⟩,
          ⟨[.notNull, .any, .isTrue], .isTrue⟩, ⟨[.notNull, .any, .isFalse], .isFalse⟩] ∧
      (Method.threeChoices.renamed renameFirst).inferContracts 300 = .ok
        [⟨[.null, .isTrue, .any], .isTrue⟩, ⟨[.null, .isFalse, .any], .isFalse⟩,
          ⟨[.notNull, .any, .isTrue], .isTrue⟩, ⟨[.notNull, .any, .isFalse], .isFalse⟩] ∧
      [2, 0, 1].Perm (List.range 3) ∧
      (Method.threeChoices.reordered [2, 0, 1]).inferContracts 300 = .ok
        [⟨[.any, .null, .isTrue], .isTrue⟩, ⟨[.any, .null, .isFalse], .isFalse⟩,
          ⟨[.isTrue, .notNull, .any], .isTrue⟩, ⟨[.isFalse, .notNull, .any], .isFalse⟩] := by
  obtain ⟨contracts, inferred, renamed, reordered⟩ :=
    Method.inferContracts_relabelled .threeChoices .threeChoices rfl rfl 300
  have computed : Method.threeChoices.inferContracts 300 = .ok
      [⟨[.null, .isTrue, .any], .isTrue⟩, ⟨[.null, .isFalse, .any], .isFalse⟩,
        ⟨[.notNull, .any, .isTrue], .isTrue⟩, ⟨[.notNull, .any, .isFalse], .isFalse⟩] := rfl
  rw [computed] at inferred
  cases inferred
  have whole : [2, 0, 1].Perm (List.range 3) := by decide
  exact ⟨rfl, computed, renamed renameFirst renameFirst_injOn, whole,
    reordered [2, 0, 1] whole (by decide)⟩

end MethodContracts
