import MethodContracts.Proofs.Body.Validity
import MethodContracts.Proofs.Inference.Trees
import MethodContracts.Proofs.Tree.Reading

/-!
# The outcomes of trees

On a valid body evaluation has the outcome of the tree, for better or worse: the same
contracts, and the same fault if a state has too few slots. It is the only fault that is
left, since a tree has no references.
-/
namespace MethodContracts

namespace Tree

/-- What a question yields of a state that may have too few slots. -/
def Atom.outcome (state : Arguments) : Atom → Except Fault (List Contract)
  | .comparison slot constraint whenEqual =>
    Interpreter.compareState slot constraint whenEqual state
  | .typeTest slot => do
    let contract ← Interpreter.testState slot state
    return [contract]
  | .constant constraint => return [⟨state, constraint⟩]
  | .use slot => Interpreter.useState slot state
  | .unknown => return []

/-- The same for one state after the other. -/
def Atom.outcomes (states : List Arguments) (atom : Atom) : Except Fault (List Contract) := do
  let contracts ← states.mapM fun state => atom.outcome state
  return contracts.flatten

namespace Expr

variable (params : List String) (maxStates : Nat)

mutual

/-- The outcome of an expression under the states. -/
def outcome (expr : Expr) (states : List Arguments) : Except Fault (List Contract) :=
  if Arguments.heeded (some maxStates) states then
    match expr with
    | .chain op operands span =>
      match op.stop? with
      | some stop => outcomeChain stop operands states
      | none => ((chain op operands span).atom params).outcomes states
    | .conditional condition whenTrue whenFalse _ => do
      let contracts ← condition.outcome states
      let first ← whenTrue.outcome (Contract.argumentsWith .isTrue contracts)
      let second ← whenFalse.outcome (Contract.argumentsWith .isFalse contracts)
      return first ++ second
    | .paren inner _ => inner.outcome states
    | .unary .not operand _ => do
      let contracts ← operand.outcome states
      return Contract.negated contracts
    | expr => (expr.atom params).outcomes states
  else return []

/-- The outcome of operands from left to right. -/
def outcomeChain (stop : Constraint) :
    List Expr → List Arguments → Except Fault (List Contract)
  | [], live => return Contract.each live stop.negate
  | operand :: operands, live => do
    let contracts ← operand.outcome live
    let others ← outcomeChain stop operands (Contract.argumentsWith stop.negate contracts)
    return contracts.filter (·.result == stop) ++ others

end

variable {params maxStates}

theorem outcome_unheeded (expr : Expr) (states : List Arguments)
    (unheeded : Arguments.heeded (some maxStates) states = false) :
    expr.outcome params maxStates states = .ok [] := by
  unfold outcome
  rw [unheeded]
  rfl

theorem outcome_chain {op : BinaryOp} {stop : Constraint} (stops : op.stop? = some stop)
    (operands : List Expr) (span : Span) (states : List Arguments) :
    (chain op operands span).outcome params maxStates states =
      if Arguments.heeded (some maxStates) states then
        outcomeChain params maxStates stop operands states
      else return [] := by
  simp only [outcome, stops]

theorem outcome_conditional (condition whenTrue whenFalse : Expr) (span : Span)
    (states : List Arguments) :
    (conditional condition whenTrue whenFalse span).outcome params maxStates states =
      if Arguments.heeded (some maxStates) states then do
        let contracts ← condition.outcome params maxStates states
        let first ←
          whenTrue.outcome params maxStates (Contract.argumentsWith .isTrue contracts)
        let second ←
          whenFalse.outcome params maxStates (Contract.argumentsWith .isFalse contracts)
        return first ++ second
      else return [] := by
  simp only [outcome]

theorem outcome_paren (inner : Expr) (span : Span) (states : List Arguments) :
    (paren inner span).outcome params maxStates states =
      inner.outcome params maxStates states := by
  cases heeded : Arguments.heeded (some maxStates) states with
  | false => rw [outcome_unheeded _ states heeded, outcome_unheeded _ states heeded]
  | true => simp only [outcome, heeded, ite_true]

/-- A negation negates whatever its operand yields, under any number of states. -/
theorem outcome_not (operand : Expr) (span : Span) (states : List Arguments) :
    (unary .not operand span).outcome params maxStates states =
      Contract.negated <$> operand.outcome params maxStates states := by
  cases heeded : Arguments.heeded (some maxStates) states with
  | false =>
    rw [outcome_unheeded _ states heeded, outcome_unheeded _ states heeded]
    rfl
  | true => simp only [outcome, heeded, ite_true, map_eq_pure_bind]

theorem outcome_atomic {expr : Expr} (atomic : expr.isAtomic = true) (states : List Arguments) :
    expr.outcome params maxStates states =
      if Arguments.heeded (some maxStates) states then (expr.atom params).outcomes states
      else return [] := by
  cases expr with
  | chain op operands span =>
    simp only [isAtomic, Option.isNone_iff_eq_none] at atomic
    simp only [outcome, atomic]
  | conditional | paren => simp [isAtomic] at atomic
  | unary op operand span =>
    cases op with
    | not => simp [isAtomic] at atomic
    | _ => simp only [outcome]
  | _ => simp only [outcome]

end Expr

namespace Stmt

variable (params : List String) (maxStates : Nat)

/-- The outcome of one statement. -/
def outcome : Stmt → List Arguments → Except Fault Interpreter.Step
  | .block [only] _, states => do
    let step ← only.outcome states
    return ⟨step.contracts, none⟩
  | .ifElse condition whenTrue (some whenFalse) _, states => do
    let results ← condition.outcome params maxStates states
    let first ← whenTrue.outcome (Contract.argumentsWith .isTrue results)
    let second ← whenFalse.outcome (Contract.argumentsWith .isFalse results)
    return ⟨first.contracts ++ second.contracts, none⟩
  | .ifElse condition whenTrue none _, states => do
    let results ← condition.outcome params maxStates states
    let first ← whenTrue.outcome (Contract.argumentsWith .isTrue results)
    return ⟨first.contracts,
      if whenTrue.alwaysReturns then some (Contract.argumentsWith .isFalse results) else none⟩
  | .throws _ _, states => return ⟨Contract.each states .fail, none⟩
  | .returns (some value) _, states => do
    let contracts ← value.outcome params maxStates states
    return ⟨contracts, none⟩
  | .assert condition _ _, states => do
    let results ← condition.outcome params maxStates states
    return ⟨Contract.each (Contract.argumentsWith .isFalse results) .fail, none⟩
  | _, _ => return ⟨[], none⟩

/-- The outcome of statements in order, as far as their states are known. -/
def outcomeAll : List Stmt → List Arguments → Except Fault (List Contract)
  | [], _ => return []
  | stmt :: stmts, states => do
    let step ← stmt.outcome params maxStates states
    match step.next with
    | none => return step.contracts
    | some live =>
      let others ← outcomeAll stmts live
      return step.contracts ++ others

end Stmt

end Tree

namespace Interpreter

variable (i : Interpreter)

/-! ## Expressions -/

private theorem slot?_toTree (expr : Expr) (read : ExprId → Tree.Expr) :
    (expr.toTree read).slot? i.params = i.paramOf? expr := by
  cases expr <;> rfl

private theorem comparison?_toTree (left right : Expr) (read : ExprId → Tree.Expr) :
    (left.toTree read).comparison? i.params (right.toTree read) = i.comparison? left right := by
  -- Which operand is a name and which a literal can be seen on the nodes.
  cases left <;> cases right <;> rfl

/-- What is not understood yields nothing. -/
private theorem outcomes_unknown (states : List Arguments) :
    Tree.Atom.unknown.outcomes states = .ok [] := by
  simp only [Tree.Atom.outcomes, Tree.Atom.outcome, List.mapM_pure, pure_bind]
  induction states with
  | nil => rfl
  | cons state states ih => exact ih

private theorem compare_eq (states : List Arguments) (left right : Expr) (whenEqual : Constraint) :
    i.compare states left right whenEqual =
      (match i.comparison? left right with
        | some (slot, constraint) => Tree.Atom.comparison slot constraint whenEqual
        | none => .unknown).outcomes states := by
  unfold compare
  cases i.comparison? left right with
  | none => exact (outcomes_unknown states).symm
  | some pair => rfl

private theorem outcomes_constant (constraint : Constraint) (states : List Arguments) :
    (Tree.Atom.constant constraint).outcomes states = .ok (Contract.each states constraint) := by
  simp only [Tree.Atom.outcomes, Tree.Atom.outcome, List.mapM_pure, pure_bind, ← List.flatMap_def,
    ← List.map_eq_flatMap]
  rfl

/-- Values that are wrapped one by one can as well be gathered as they are. -/
private theorem flatten_mapM {α β : Type} (f : α → Except Fault β) (xs : List α) :
    (do
      let results ← xs.mapM fun x => do
        let result ← f x
        return [result]
      return results.flatten) = xs.mapM f := by
  induction xs with
  | nil => rfl
  | cons x xs ih =>
    simp only [List.mapM_cons, bind_assoc, pure_bind, List.flatten_cons, List.singleton_append,
      ← ih]

private theorem expr_eq_ok (id : ExprId) (expr : Expr) (found : i.body.expr? id = some expr) :
    i.expr id = .ok expr := by
  simp only [Interpreter.expr, found]

/-- The operand of a node is found, and its tree is that of the node it is. -/
private theorem operand_eq (valid : i.body.Valid) (id child : ExprId) (expr : Expr)
    (found : i.body.expr? id = some expr) (member : child ∈ expr.children) :
    ∃ operand, i.expr child = .ok operand ∧
      i.body.exprTree child = operand.toTree i.body.exprTree := by
  -- References of a valid body point back, so the operand is in the arena.
  have before := valid.expr_lt id.index expr found child member
  have inside := i.body.lt_of_expr? id expr found
  obtain ⟨operand, present⟩ := i.body.exists_expr? child (by omega)
  exact ⟨operand, i.expr_eq_ok child operand present,
    i.body.exprTree_eq valid child operand present⟩

private theorem comparison_eq (valid : i.body.Valid) (id : ExprId) (expr : Expr)
    (found : i.body.expr? id = some expr) (left right : ExprId) (leftChild : left ∈ expr.children)
    (rightChild : right ∈ expr.children) (whenEqual : Constraint) (states : List Arguments) :
    (do
      let left ← i.expr left
      let right ← i.expr right
      i.compare states left right whenEqual) =
      (match (i.body.exprTree left).comparison? i.params (i.body.exprTree right) with
        | some (slot, constraint) => Tree.Atom.comparison slot constraint whenEqual
        | none => .unknown).outcomes states := by
  obtain ⟨leftNode, leftFound, leftTree⟩ := i.operand_eq valid id left expr found leftChild
  obtain ⟨rightNode, rightFound, rightTree⟩ := i.operand_eq valid id right expr found rightChild
  -- Both operands are found, so only what they are compared as is left.
  rw [leftFound, rightFound, leftTree, rightTree, i.comparison?_toTree]
  exact i.compare_eq states leftNode rightNode whenEqual

section Nesting

variable (nested : List Arguments → ExprId → Except Fault (List Contract))

/-- On these expressions the nested evaluation has the outcomes of their trees. -/
def Nested (ids : List ExprId) : Prop :=
  ∀ id ∈ ids, ∀ states,
    nested states id = (i.body.exprTree id).outcome i.params i.maxStates states

private theorem shortCircuit_eq (stop : Constraint) (operands : List ExprId)
    (each : i.Nested nested operands) (live : List Arguments) :
    shortCircuit nested stop live operands =
      Tree.Expr.outcomeChain i.params i.maxStates stop (operands.map i.body.exprTree) live := by
  induction operands generalizing live with
  | nil => rfl
  | cons operand operands ih =>
    have later := ih fun other member => each other (List.mem_cons_of_mem _ member)
    simp only [shortCircuit, List.map_cons, Tree.Expr.outcomeChain, later,
      each operand List.mem_cons_self]

/-- A chain has the outcome of its tree: two operands of an equality are compared, and
those of `&&` and `||` are evaluated in turn. -/
private theorem chainNode_eq (valid : i.body.Valid) (id : ExprId) (op : BinaryOp)
    (operands : List ExprId) (span : Span)
    (found : i.body.expr? id = some (.chain op operands span)) (each : i.Nested nested operands)
    (states : List Arguments) (heeded : Arguments.heeded (some i.maxStates) states = true) :
    i.evalNode nested states (.chain op operands span) =
      (Tree.Expr.chain op (operands.map i.body.exprTree) span).outcome i.params i.maxStates
        states := by
  have silent := outcomes_unknown states
  simp only [Tree.Expr.outcome, heeded, ite_true]
  cases op with
  | and => exact i.shortCircuit_eq nested .isFalse operands each states
  | or => exact i.shortCircuit_eq nested .isTrue operands each states
  -- Only two operands can be a parameter and a literal.
  | equal =>
    rcases operands with _ | ⟨left, _ | ⟨right, _ | ⟨other, others⟩⟩⟩
    · exact silent.symm
    · exact silent.symm
    · exact i.comparison_eq valid id _ found left right (by simp [Expr.children])
        (by simp [Expr.children]) .isTrue states
    · exact silent.symm
  | notEqual =>
    rcases operands with _ | ⟨left, _ | ⟨right, _ | ⟨other, others⟩⟩⟩
    · exact silent.symm
    · exact silent.symm
    · exact i.comparison_eq valid id _ found left right (by simp [Expr.children])
        (by simp [Expr.children]) .isFalse states
    · exact silent.symm
  -- Arithmetic and order say nothing of truth, null or exceptions.
  | _ => exact silent.symm

private theorem evalNode_eq (valid : i.body.Valid) (id : ExprId) (expr : Expr)
    (found : i.body.expr? id = some expr) (each : i.Nested nested expr.children)
    (states : List Arguments) (heeded : Arguments.heeded (some i.maxStates) states = true) :
    i.evalNode nested states expr =
      (i.body.exprTree id).outcome i.params i.maxStates states := by
  -- With the tree unfolded once, both sides go into the same parts.
  rw [i.body.exprTree_eq valid id expr found]
  have silent := outcomes_unknown states
  cases expr with
  | chain op operands span =>
    exact i.chainNode_eq nested valid id op operands span found each states heeded
  | conditional condition whenTrue whenFalse span =>
    simp only [evalNode, Expr.toTree, Tree.Expr.outcome, heeded, ite_true,
      each condition (by simp [Expr.children]), each whenTrue (by simp [Expr.children]),
      each whenFalse (by simp [Expr.children])]
  | paren inner span =>
    simp only [evalNode, Expr.toTree, Tree.Expr.outcome, heeded, ite_true,
      each inner (by simp [Expr.children])]
  | unary op operand span =>
    cases op with
    | not =>
      simp only [evalNode, Expr.toTree, Tree.Expr.outcome, heeded, ite_true,
        each operand (by simp [Expr.children])]
    | _ =>
      simp only [Expr.toTree, Tree.Expr.outcome, heeded, ite_true]
      exact silent.symm
  | instanceOf operand type span =>
    simp only [Expr.toTree, Tree.Expr.outcome, heeded, ite_true, Tree.Expr.atom]
    obtain ⟨node, nodeFound, nodeTree⟩ :=
      i.operand_eq valid id operand _ found (by simp [Expr.children])
    have present : i.expr operand = pure node := nodeFound
    simp only [evalNode, present, pure_bind, nodeTree, slot?_toTree]
    cases i.paramOf? node with
    | none => exact silent.symm
    | some slot => exact (flatten_mapM (testState slot) states).symm
  | literal kind text span =>
    simp only [Expr.toTree, Tree.Expr.outcome, heeded, ite_true, Tree.Expr.atom, evalNode]
    cases kind.constraint? with
    | none => exact silent.symm
    | some constraint => exact (outcomes_constant constraint states).symm
  | name word span =>
    simp only [Expr.toTree, Tree.Expr.outcome, heeded, ite_true, Tree.Expr.atom, evalNode]
    cases i.params.idxOf? word with
    | none => exact silent.symm
    | some slot => rfl
  | _ =>
    simp only [Expr.toTree, Tree.Expr.outcome, heeded, ite_true]
    exact silent.symm

end Nesting

/-- On a valid body an expression has the outcome of its tree, at any depth that reaches it. -/
theorem evalExprWithin_eq (valid : i.body.Valid) (depth : Nat) (id : ExprId)
    (inside : id.index < i.body.exprs.size) (deep : id.index < depth) (states : List Arguments) :
    i.evalExprWithin depth states id =
      (i.body.exprTree id).outcome i.params i.maxStates states := by
  -- By induction on the depth: operands lie before their node, so one level less reaches them.
  induction depth generalizing id states with
  | zero => omega
  | succ depth ih =>
    obtain ⟨expr, found⟩ := i.body.exists_expr? id inside
    unfold evalExprWithin
    cases idle : states.isEmpty || decide (i.maxStates < states.length) with
    | true =>
      -- Without states, or with too many, neither side looks at the expression.
      rw [Tree.Expr.outcome_unheeded _ _ (by rw [Arguments.heeded_some, idle, Bool.not_true])]
      rfl
    | false =>
      have heeded : Arguments.heeded (some i.maxStates) states = true := by
        rw [Arguments.heeded_some, idle, Bool.not_false]
      simp only [Bool.false_eq_true, ite_false, i.expr_eq_ok id expr found]
      apply i.evalNode_eq (i.evalExprWithin depth) valid id expr found _ states heeded
      intro child member
      have before := valid.expr_lt id.index expr found child member
      exact ih child (by omega) (by omega)

theorem evalExpr_eq (valid : i.body.Valid) (id : ExprId)
    (inside : id.index < i.body.exprs.size) (states : List Arguments) :
    i.evalExpr states id = (i.body.exprTree id).outcome i.params i.maxStates states :=
  i.evalExprWithin_eq valid _ id inside (by omega) states

/-! ## Statements -/

private theorem stmt_eq_ok (id : StmtId) (stmt : Stmt) (found : i.body.stmt? id = some stmt) :
    i.stmt id = .ok stmt := by
  simp only [Interpreter.stmt, found]

private theorem anyReturns_eq (nested : StmtId → Except Fault Bool) (ids : List StmtId)
    (each : ∀ id ∈ ids, nested id = .ok (i.body.stmtTree id).alwaysReturns) :
    anyReturns nested ids = .ok (Tree.Stmt.anyReturns (ids.map i.body.stmtTree)) := by
  induction ids with
  | nil => rfl
  | cons id ids ih =>
    have later := ih fun other member => each other (List.mem_cons_of_mem _ member)
    simp only [anyReturns, each id List.mem_cons_self, later, List.map_cons,
      Tree.Stmt.anyReturns]
    cases (i.body.stmtTree id).alwaysReturns <;> rfl

private theorem returnsNode_eq (valid : i.body.Valid) (nested : StmtId → Except Fault Bool)
    (id : StmtId) (stmt : Stmt) (found : i.body.stmt? id = some stmt)
    (each : ∀ child ∈ stmt.childStmts, nested child = .ok (i.body.stmtTree child).alwaysReturns) :
    returnsNode nested stmt = .ok (i.body.stmtTree id).alwaysReturns := by
  rw [i.body.stmtTree_eq valid id stmt found]
  cases stmt with
  | block statements span => exact i.anyReturns_eq nested statements each
  | ifElse condition whenTrue whenFalse span =>
    have first := each whenTrue List.mem_cons_self
    cases whenFalse with
    | none =>
      simp only [returnsNode, first]
      rfl
    | some whenFalse =>
      have second := each whenFalse (by simp [Stmt.childStmts])
      simp only [returnsNode, first, second, Stmt.toTree, Option.map_some,
        Tree.Stmt.alwaysReturns]
      cases (i.body.stmtTree whenTrue).alwaysReturns <;> rfl
  | _ => rfl

theorem alwaysReturnsWithin_eq (valid : i.body.Valid) (depth : Nat) (id : StmtId)
    (inside : id.index < i.body.stmts.size) (deep : id.index < depth) :
    i.alwaysReturnsWithin depth id = .ok (i.body.stmtTree id).alwaysReturns := by
  -- The parts of a statement lie before it, as those of an expression do.
  induction depth generalizing id with
  | zero => omega
  | succ depth ih =>
    obtain ⟨stmt, found⟩ := i.body.exists_stmt? id inside
    simp only [alwaysReturnsWithin, i.stmt_eq_ok id stmt found]
    apply i.returnsNode_eq valid (i.alwaysReturnsWithin depth) id stmt found
    intro child member
    have before := valid.stmt_lt id.index stmt found child member
    exact ih child (by omega) (by omega)

theorem alwaysReturns_eq (valid : i.body.Valid) (id : StmtId)
    (inside : id.index < i.body.stmts.size) :
    i.alwaysReturns id = .ok (i.body.stmtTree id).alwaysReturns :=
  i.alwaysReturnsWithin_eq valid _ id inside (by omega)

section Nesting

variable (nested : List Arguments → StmtId → Except Fault Step)

/-- On these statements the nested evaluation has the outcomes of their trees. -/
def NestedStmts (ids : List StmtId) : Prop :=
  ∀ id ∈ ids, ∀ states,
    nested states id = (i.body.stmtTree id).outcome i.params i.maxStates states

/-- A sequence of one statement has the contracts of the statement. -/
private theorem evalSequence_single (states : List Arguments) (id : StmtId) :
    evalSequence nested states [id] = (do
      let step ← nested states id
      return step.contracts) := by
  simp only [evalSequence]
  apply bind_congr
  intro step
  cases step.next with
  | none => rfl
  | some live => simp only [pure_bind, List.append_nil]

private theorem evalStmtNode_eq (valid : i.body.Valid) (id : StmtId) (stmt : Stmt)
    (found : i.body.stmt? id = some stmt) (each : i.NestedStmts nested stmt.childStmts)
    (states : List Arguments) :
    i.evalStmtNode nested states stmt =
      (i.body.stmtTree id).outcome i.params i.maxStates states := by
  rw [i.body.stmtTree_eq valid id stmt found]
  -- Expressions have the outcomes of their trees already.
  have evaluated (value : ExprId) (member : value ∈ stmt.childExprs) :=
    i.evalExpr_eq valid value (valid.stmt_expr_lt id.index stmt found value member)
  cases stmt with
  | block statements span =>
    match statements with
    | [] | _ :: _ :: _ => rfl
    | [only] =>
      -- A statement in a block is evaluated as a sequence of one.
      simp only [evalStmtNode, evalSequence_single, each only List.mem_cons_self, bind_assoc,
        pure_bind, Stmt.toTree, List.map_cons, List.map_nil, Tree.Stmt.outcome]
  | ifElse condition whenTrue whenFalse span =>
    have decides := evaluated condition List.mem_cons_self
    have first := each whenTrue List.mem_cons_self
    cases whenFalse with
    | none =>
      -- Past a guard the next statement is reached only if the branch always returns.
      have inside : whenTrue.index < i.body.stmts.size := by
        have before := valid.stmt_lt id.index _ found whenTrue List.mem_cons_self
        have placed := i.body.lt_of_stmt? id _ found
        omega
      simp only [evalStmtNode, evalSequence_single, decides, first, bind_assoc, pure_bind,
        i.alwaysReturns_eq valid whenTrue inside, Stmt.toTree, Option.map_none,
        Tree.Stmt.outcome]
      cases (i.body.stmtTree whenTrue).alwaysReturns <;> rfl
    | some whenFalse =>
      have second := each whenFalse (by simp [Stmt.childStmts])
      simp only [evalStmtNode, evalSequence_single, decides, first, second, bind_assoc, pure_bind,
        Stmt.toTree, Option.map_some, Tree.Stmt.outcome]
  | returns value span =>
    cases value with
    | none => rfl
    | some value =>
      simp only [evalStmtNode, evaluated value List.mem_cons_self, Stmt.toTree, Option.map_some,
        Tree.Stmt.outcome]
  | assert condition message span =>
    simp only [evalStmtNode, evaluated condition List.mem_cons_self, Stmt.toTree,
      Tree.Stmt.outcome]
  | _ => rfl

end Nesting

private theorem evalStmtWithin_eq (valid : i.body.Valid) (depth : Nat) (id : StmtId)
    (inside : id.index < i.body.stmts.size) (deep : id.index < depth) (states : List Arguments) :
    i.evalStmtWithin depth states id =
      (i.body.stmtTree id).outcome i.params i.maxStates states := by
  induction depth generalizing id states with
  | zero => omega
  | succ depth ih =>
    obtain ⟨stmt, found⟩ := i.body.exists_stmt? id inside
    simp only [evalStmtWithin, i.stmt_eq_ok id stmt found]
    apply i.evalStmtNode_eq (i.evalStmtWithin depth) valid id stmt found
    intro child member
    have before := valid.stmt_lt id.index stmt found child member
    exact ih child (by omega) (by omega)

/-- On a valid body statements have the outcome of their trees, at any depth that reaches them. -/
theorem evalSequence_eq (valid : i.body.Valid) (depth : Nat) (ids : List StmtId)
    (inside : ∀ id ∈ ids, id.index < i.body.stmts.size) (deep : ∀ id ∈ ids, id.index < depth)
    (states : List Arguments) :
    evalSequence (i.evalStmtWithin depth) states ids =
      Tree.Stmt.outcomeAll i.params i.maxStates (ids.map i.body.stmtTree) states := by
  induction ids generalizing states with
  | nil => rfl
  | cons id ids ih =>
    have placed := inside id List.mem_cons_self
    have reached := deep id List.mem_cons_self
    have later := ih (fun other member => inside other (List.mem_cons_of_mem _ member))
      (fun other member => deep other (List.mem_cons_of_mem _ member))
    rw [evalSequence, i.evalStmtWithin_eq valid depth id placed reached, List.map_cons,
      Tree.Stmt.outcomeAll]
    apply bind_congr
    intro step
    -- The rest of the sequence is evaluated only if states are handed on.
    cases step.next with
    | none => rfl
    | some live => simp only [later live]

theorem evalStmts_eq (valid : i.body.Valid) (ids : List StmtId)
    (inside : ∀ id ∈ ids, id.index < i.body.stmts.size) (states : List Arguments) :
    i.evalStmts states ids =
      Tree.Stmt.outcomeAll i.params i.maxStates (ids.map i.body.stmtTree) states := by
  apply i.evalSequence_eq valid _ ids inside
  intro id member
  have placed := inside id member
  omega

end Interpreter
end MethodContracts
