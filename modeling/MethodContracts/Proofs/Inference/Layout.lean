import MethodContracts.Proofs.Inference.Totality
import MethodContracts.Proofs.Tree.Spans

/-!
# Inference sees the tree and not the arenas

Where a body keeps its nodes, which of them share a part and what else its arenas
hold makes no difference for inference, and neither do the spans. Two bodies that
unfold to the same tree, up to spans, have the same contracts, and the statements
at the same place in both always return or both do not.
-/
namespace MethodContracts

namespace Tree

variable {params : List String} {limit : Option Nat} {maxStates : Nat}

/-! ## Spans are not looked at -/

namespace Expr

private theorem slot?_withoutSpans (expr : Expr) :
    expr.withoutSpans.slot? params = expr.slot? params := by
  cases expr <;> rfl

private theorem constant?_withoutSpans (expr : Expr) :
    expr.withoutSpans.constant? = expr.constant? := by
  cases expr <;> rfl

private theorem comparison?_withoutSpans (left right : Expr) :
    left.withoutSpans.comparison? params right.withoutSpans = left.comparison? params right := by
  simp only [comparison?, slot?_withoutSpans, constant?_withoutSpans]

private theorem isAtomic_withoutSpans (expr : Expr) :
    expr.withoutSpans.isAtomic = expr.isAtomic := by
  cases expr with
  | unary op operand span => cases op <;> rfl
  | _ => rfl

private theorem atom_withoutSpans (expr : Expr) :
    expr.withoutSpans.atom params = expr.atom params := by
  cases expr with
  | chain op operands span =>
    rw [withoutSpans_chain]
    -- Only two operands are compared.
    rcases operands with _ | ⟨left, _ | ⟨right, _ | ⟨other, others⟩⟩⟩
    · cases op <;> rfl
    · cases op <;> rfl
    · cases op <;> simp only [List.map_cons, List.map_nil, atom, comparison?_withoutSpans]
    · cases op <;> rfl
  | instanceOf operand type span => simp only [withoutSpans, atom, slot?_withoutSpans]
  | _ => rfl

private theorem evalChain_withoutSpans {stop : Constraint} {operands : List Expr}
    (each : ∀ operand ∈ operands, ∀ states,
      operand.withoutSpans.eval params limit states = operand.eval params limit states)
    (live : List Arguments) :
    evalChain params limit stop (operands.map withoutSpans) live =
      evalChain params limit stop operands live := by
  induction operands generalizing live with
  | nil => rfl
  | cons operand operands ih =>
    have later := ih fun other member => each other (List.mem_cons_of_mem _ member)
    simp only [List.map_cons, evalChain, each operand List.mem_cons_self, later]

private theorem eval_withoutSpans (expr : Expr) (states : List Arguments) :
    expr.withoutSpans.eval params limit states = expr.eval params limit states := by
  induction expr using byShape generalizing states with
  | chain op stop operands span stops each =>
    rw [withoutSpans_chain, eval_chain stops, eval_chain stops, evalChain_withoutSpans each]
  | conditional condition whenTrue whenFalse span decides first second =>
    simp only [withoutSpans, eval, decides, first, second]
  | paren inner span same => simp only [withoutSpans, eval, same]
  | not operand span same => simp only [withoutSpans, eval, same]
  | atomic expr atomic =>
    have still : expr.withoutSpans.isAtomic = true := expr.isAtomic_withoutSpans.trans atomic
    rw [eval_atomic still, eval_atomic atomic, atom_withoutSpans]

private theorem outcomeChain_withoutSpans {stop : Constraint} {operands : List Expr}
    (each : ∀ operand ∈ operands, ∀ states,
      operand.withoutSpans.outcome params maxStates states =
        operand.outcome params maxStates states)
    (live : List Arguments) :
    outcomeChain params maxStates stop (operands.map withoutSpans) live =
      outcomeChain params maxStates stop operands live := by
  induction operands generalizing live with
  | nil => rfl
  | cons operand operands ih =>
    have later := ih fun other member => each other (List.mem_cons_of_mem _ member)
    simp only [List.map_cons, outcomeChain, each operand List.mem_cons_self, later]

theorem outcome_withoutSpans (expr : Expr) (states : List Arguments) :
    expr.withoutSpans.outcome params maxStates states =
      expr.outcome params maxStates states := by
  induction expr using byShape generalizing states with
  | chain op stop operands span stops each =>
    rw [withoutSpans_chain, outcome_chain stops, outcome_chain stops,
      outcomeChain_withoutSpans each]
  | conditional condition whenTrue whenFalse span decides first second =>
    simp only [withoutSpans, outcome, decides, first, second]
  | paren inner span same => simp only [withoutSpans, outcome, same]
  | not operand span same => simp only [withoutSpans, outcome, same]
  | atomic expr atomic =>
    have still : expr.withoutSpans.isAtomic = true := expr.isAtomic_withoutSpans.trans atomic
    rw [outcome_atomic still, outcome_atomic atomic, atom_withoutSpans]

end Expr

namespace Stmt

private theorem anyReturns_withoutSpans {stmts : List Stmt}
    (each : ∀ stmt ∈ stmts, stmt.withoutSpans.alwaysReturns = stmt.alwaysReturns) :
    anyReturns (stmts.map withoutSpans) = anyReturns stmts := by
  induction stmts with
  | nil => rfl
  | cons stmt stmts ih =>
    have later := ih fun other member => each other (List.mem_cons_of_mem _ member)
    simp only [List.map_cons, anyReturns, each stmt List.mem_cons_self, later]

private theorem alwaysReturns_withoutSpans (stmt : Stmt) :
    stmt.withoutSpans.alwaysReturns = stmt.alwaysReturns := by
  induction stmt using byChildren with
  | step stmt each =>
    cases stmt with
    | block statements span =>
      simp only [withoutSpans, allWithoutSpans_eq, alwaysReturns]
      exact anyReturns_withoutSpans each
    | ifElse condition whenTrue whenFalse span =>
      cases whenFalse with
      | none => rfl
      | some whenFalse =>
        have first := each whenTrue List.mem_cons_self
        have second := each whenFalse (by simp [children])
        simp only [withoutSpans, optionWithoutSpans, alwaysReturns, first, second]
    | _ => rfl

private theorem eval_withoutSpans (stmt : Stmt) (states : List Arguments) :
    stmt.withoutSpans.eval params limit states = stmt.eval params limit states := by
  induction stmt using byChildren generalizing states with
  | step stmt each =>
    cases stmt with
    | block statements span =>
      rw [withoutSpans, allWithoutSpans_eq]
      -- A block is looked into if it holds one statement.
      rcases statements with _ | ⟨only, _ | ⟨other, others⟩⟩
      · rfl
      · simp only [List.map_cons, List.map_nil, eval, each only List.mem_cons_self]
      · rfl
    | ifElse condition whenTrue whenFalse span =>
      have first := each whenTrue List.mem_cons_self
      cases whenFalse with
      | none =>
        simp only [withoutSpans, optionWithoutSpans, eval, condition.eval_withoutSpans, first,
          alwaysReturns_withoutSpans]
      | some whenFalse =>
        have second := each whenFalse (by simp [children])
        simp only [withoutSpans, optionWithoutSpans, eval, condition.eval_withoutSpans, first,
          second]
    | returns value span =>
      cases value with
      | none => rfl
      | some value => simp only [withoutSpans, Option.map_some, eval, value.eval_withoutSpans]
    | assert condition message span =>
      simp only [withoutSpans, eval, condition.eval_withoutSpans]
    | _ => rfl

theorem evalAll_withoutSpans (stmts : List Stmt) (states : List Arguments) :
    evalAll params limit (stmts.map withoutSpans) states = evalAll params limit stmts states := by
  induction stmts generalizing states with
  | nil => rfl
  | cons stmt stmts ih => simp only [List.map_cons, evalAll, stmt.eval_withoutSpans, ih]

theorem outcome_withoutSpans (stmt : Stmt) (states : List Arguments) :
    stmt.withoutSpans.outcome params maxStates states =
      stmt.outcome params maxStates states := by
  induction stmt using byChildren generalizing states with
  | step stmt each =>
    cases stmt with
    | block statements span =>
      rw [withoutSpans, allWithoutSpans_eq]
      rcases statements with _ | ⟨only, _ | ⟨other, others⟩⟩
      · rfl
      · simp only [List.map_cons, List.map_nil, outcome, each only List.mem_cons_self]
      · rfl
    | ifElse condition whenTrue whenFalse span =>
      have first := each whenTrue List.mem_cons_self
      cases whenFalse with
      | none =>
        simp only [withoutSpans, optionWithoutSpans, outcome, condition.outcome_withoutSpans,
          first, alwaysReturns_withoutSpans]
      | some whenFalse =>
        have second := each whenFalse (by simp [children])
        simp only [withoutSpans, optionWithoutSpans, outcome, condition.outcome_withoutSpans,
          first, second]
    | returns value span =>
      cases value with
      | none => rfl
      | some value =>
        simp only [withoutSpans, Option.map_some, outcome, value.outcome_withoutSpans]
    | assert condition message span =>
      simp only [withoutSpans, outcome, condition.outcome_withoutSpans]
    | _ => rfl

end Stmt

end Tree

/-! ## The same place in two bodies -/

namespace Body

/-- The statement that is reached from a statement by going on to the part with
each of the given numbers in turn. -/
def stmtBelow? (body : Body) (id : StmtId) : List Nat → Option StmtId
  | [] => some id
  | number :: path => do
    let stmt ← body.stmt? id
    let part ← stmt.childStmts[number]?
    body.stmtBelow? part path

/-- The statement at a place of the tree, given by the way to it from the root. -/
def stmtAt? (body : Body) (path : List Nat) : Option StmtId := body.stmtBelow? body.root path

/-- The statements have the same tree, up to spans. -/
structure SameStmt (left right : Body) (id id' : StmtId) : Prop where
  left_lt : id.index < left.stmts.size
  right_lt : id'.index < right.stmts.size
  tree_eq : (left.stmtTree id).withoutSpans = (right.stmtTree id').withoutSpans

/-- The parts of the tree are the trees of the parts. -/
private theorem children_stmtTree (body : Body) (valid : body.Valid) (id : StmtId) (stmt : Stmt)
    (found : body.stmt? id = some stmt) :
    (body.stmtTree id).children = stmt.childStmts.map body.stmtTree := by
  rw [body.stmtTree_eq valid id stmt found]
  cases stmt with
  | ifElse condition whenTrue whenFalse span => cases whenFalse <;> rfl
  | _ => rfl

section Same

variable {left right : Body} (leftValid : left.Valid) (rightValid : right.Valid)
include leftValid rightValid

/-- Statements with the same tree have as many parts, and a part has the same tree
as the part with its number. -/
theorem SameStmt.part {id id' : StmtId} (same : SameStmt left right id id') {stmt stmt' : Stmt}
    (found : left.stmt? id = some stmt) (found' : right.stmt? id' = some stmt') (number : Nat) :
    Option.Rel (SameStmt left right) stmt.childStmts[number]? stmt'.childStmts[number]? := by
  -- Their trees have the same parts without spans, so the same part at each number.
  have trees := congrArg (fun tree : Tree.Stmt => tree.children[number]?) same.tree_eq
  simp only [Tree.Stmt.children_withoutSpans, left.children_stmtTree leftValid id stmt found,
    right.children_stmtTree rightValid id' stmt' found', List.getElem?_map] at trees
  cases part : stmt.childStmts[number]? with
  | none =>
    cases part' : stmt'.childStmts[number]? with
    | none => exact .none
    | some child' => simp [part, part'] at trees
  | some child =>
    cases part' : stmt'.childStmts[number]? with
    | none => simp [part, part'] at trees
    | some child' =>
      simp only [part, part', Option.map_some, Option.some.injEq] at trees
      -- A part lies before its statement, so in the arena.
      have before := leftValid.stmt_lt id.index stmt found child (List.mem_of_getElem? part)
      have before' := rightValid.stmt_lt id'.index stmt' found' child' (List.mem_of_getElem? part')
      have inside := same.left_lt
      have inside' := same.right_lt
      exact .some ⟨by omega, by omega, trees⟩

/-- From statements with the same tree every way leads to statements with the same
tree, or on both sides nowhere. -/
theorem SameStmt.below {id id' : StmtId} (same : SameStmt left right id id') (path : List Nat) :
    Option.Rel (SameStmt left right) (left.stmtBelow? id path) (right.stmtBelow? id' path) := by
  induction path generalizing id id' with
  | nil => exact .some same
  | cons number path ih =>
    obtain ⟨stmt, found⟩ := left.exists_stmt? id same.left_lt
    obtain ⟨stmt', found'⟩ := right.exists_stmt? id' same.right_lt
    have parts := same.part leftValid rightValid found found' number
    simp only [stmtBelow?, found, found', Option.bind_eq_bind, Option.bind_some]
    generalize stmt.childStmts[number]? = part, stmt'.childStmts[number]? = part' at parts
    cases parts with
    | none => exact .none
    | some same => exact ih same

end Same

end Body

/-- Of two statements with the same tree both always return or neither does. The names
of the parameters and the limit play no part in it. -/
theorem Body.SameStmt.alwaysReturns {left right : Interpreter} {id id' : StmtId}
    (leftValid : left.body.Valid) (rightValid : right.body.Valid)
    (same : Body.SameStmt left.body right.body id id') :
    ∃ always, left.alwaysReturns id = .ok always ∧ right.alwaysReturns id' = .ok always := by
  refine ⟨_, left.alwaysReturns_eq leftValid id same.left_lt, ?_⟩
  rw [right.alwaysReturns_eq rightValid id' same.right_lt,
    ← (left.body.stmtTree id).alwaysReturns_withoutSpans, same.tree_eq,
    Tree.Stmt.alwaysReturns_withoutSpans]

/-! ## Methods -/

/-- Inference depends on the tree only: from bodies with the same tree, up to spans,
the same contracts are inferred in the same order, and what is at the same place in
both always returns in both or in neither. -/
theorem Method.inferContracts_layout (left right : Method)
    (names : left.params.map (·.name) = right.params.map (·.name)) (body body' : Body)
    (present : left.body = some body) (present' : right.body = some body')
    (accepted : body.validate = .ok ()) (accepted' : body'.validate = .ok ())
    (same : body.tree.withoutSpans = body'.tree.withoutSpans) (maxStates : Nat) :
    (∃ contracts, left.inferContracts maxStates = .ok contracts ∧
      right.inferContracts maxStates = .ok contracts) ∧
    ∀ path, Option.Rel
      (fun id id' => ∃ always,
        (left.interpreter body maxStates).alwaysReturns id = .ok always ∧
        (right.interpreter body' maxStates).alwaysReturns id' = .ok always)
      (body.stmtAt? path) (body'.stmtAt? path) := by
  have valid := body.valid_of_validate accepted
  have valid' := body'.valid_of_validate accepted'
  constructor
  · refine ⟨_, left.inferContracts_eq body present valid maxStates, ?_⟩
    -- The names decide how many parameters there are.
    have arity : left.params.length = right.params.length := by
      simpa only [List.length_map] using congrArg List.length names
    have statements : body.tree.statements.map Tree.Stmt.withoutSpans =
        body'.tree.statements.map Tree.Stmt.withoutSpans := by
      rw [← Tree.Stmt.statements_withoutSpans, same, Tree.Stmt.statements_withoutSpans]
    rw [right.inferContracts_eq body' present' valid' maxStates, names, arity,
      ← Tree.Stmt.evalAll_withoutSpans body.tree.statements, statements,
      Tree.Stmt.evalAll_withoutSpans]
  · -- From the same tree on, a path leads to the same tree or leaves both bodies.
    intro path
    have roots : Body.SameStmt body body' body.root body'.root :=
      ⟨valid.root_lt, valid'.root_lt, same⟩
    have reached := roots.below valid valid' path
    simp only [Body.stmtAt?]
    generalize body.stmtBelow? body.root path = found,
      body'.stmtBelow? body'.root path = found' at reached
    cases reached with
    | none => exact .none
    | some same => exact .some (Body.SameStmt.alwaysReturns valid valid' same)

/-- The body `guardedChoice` with a copy of each shared expression, in another order and
with nodes that nothing refers to. -/
def Body.copiedChoice : Body where
  root := ⟨4⟩
  stmts := #[.empty ⟨7, 7⟩, .returns (some ⟨10⟩) ⟨7, 7⟩, .throws ⟨4⟩ ⟨7, 7⟩,
    .ifElse ⟨3⟩ ⟨2⟩ none ⟨7, 7⟩, .block [⟨3⟩, ⟨1⟩] ⟨7, 7⟩, .block [⟨4⟩, ⟨4⟩] ⟨7, 7⟩]
  exprs := #[.missing ⟨7, 7⟩, .literal .null "null" ⟨7, 7⟩, .name "x" ⟨7, 7⟩,
    .chain .equal [⟨2⟩, ⟨1⟩] ⟨7, 7⟩, .name "x" ⟨7, 7⟩, .name "y" ⟨7, 7⟩, .name "y" ⟨7, 7⟩,
    .unary .not ⟨6⟩ ⟨7, 7⟩, .name "x" ⟨7, 7⟩, .instanceOf ⟨8⟩ "T" ⟨7, 7⟩,
    .conditional ⟨9⟩ ⟨5⟩ ⟨7⟩ ⟨7, 7⟩]

def Method.copiedChoice : Method where
  name := "g"
  owner := some "A"
  params := [⟨"x", ""⟩, ⟨"y", "Boolean"⟩]
  annotations := []
  body := some .copiedChoice
  span := ⟨7, 7⟩

theorem Method.inferContracts_layout_copiedChoice :
    Method.guardedChoice.params.map (·.name) = Method.copiedChoice.params.map (·.name) ∧
      Method.guardedChoice.body = some .guardedChoice ∧
      Method.copiedChoice.body = some .copiedChoice ∧
      Body.guardedChoice.validate = .ok () ∧ Body.copiedChoice.validate = .ok () ∧
      Body.guardedChoice.tree.withoutSpans = Body.copiedChoice.tree.withoutSpans ∧
      Method.copiedChoice.inferContracts 300 = .ok
        [⟨[.null, .any], .fail⟩, ⟨[.null, .isTrue], .isFalse⟩, ⟨[.null, .isFalse], .isTrue⟩] ∧
      Body.guardedChoice.stmtAt? [0, 0] = some ⟨0⟩ ∧ Body.copiedChoice.stmtAt? [0, 0] = some ⟨2⟩ ∧
      ∃ always,
        (Method.guardedChoice.interpreter .guardedChoice 300).alwaysReturns ⟨0⟩ = .ok always ∧
        (Method.copiedChoice.interpreter .copiedChoice 300).alwaysReturns ⟨2⟩ = .ok always := by
  have names : Method.guardedChoice.params.map (·.name) =
      Method.copiedChoice.params.map (·.name) := rfl
  have same : Body.guardedChoice.tree.withoutSpans = Body.copiedChoice.tree.withoutSpans := rfl
  obtain ⟨⟨contracts, inferred, again⟩, places⟩ := Method.inferContracts_layout .guardedChoice
    .copiedChoice names .guardedChoice .copiedChoice rfl rfl rfl rfl same 300
  have computed : Method.guardedChoice.inferContracts 300 = .ok
      [⟨[.null, .any], .fail⟩, ⟨[.null, .isTrue], .isFalse⟩, ⟨[.null, .isFalse], .isTrue⟩] := rfl
  rw [computed] at inferred
  cases inferred
  -- The branch of the `if` is at the same place in both bodies.
  have branch := places [0, 0]
  cases branch with
  | some always => exact ⟨names, rfl, rfl, rfl, rfl, same, again, rfl, rfl, always⟩

end MethodContracts
