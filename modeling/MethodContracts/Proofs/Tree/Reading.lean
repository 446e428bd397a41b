import MethodContracts.Body.Validity
import MethodContracts.Proofs.Tree.Children

/-!
# Reading bodies as trees

A reference is read as what it refers to, with the references of that read in
turn. References of a valid body point back, so reading follows each of them; a
reference that leads nowhere is read as a missing expression or an empty
statement, which no valid body has.
-/
namespace MethodContracts

/-- The node with its references read. -/
def Expr.toTree (read : ExprId → Tree.Expr) : Expr → Tree.Expr
  | .name word span => .name word span
  | .literal kind text span => .literal kind text span
  | .this span => .this span
  | .field receiver member span => .field (read receiver) member span
  | .index array position span => .index (read array) (read position) span
  | .call callee arguments span => .call (read callee) (arguments.map read) span
  | .new type arguments span => .new type (arguments.map read) span
  | .unary op operand span => .unary op (read operand) span
  | .chain op operands span => .chain op (operands.map read) span
  | .instanceOf operand type span => .instanceOf (read operand) type span
  | .conditional condition whenTrue whenFalse span =>
    .conditional (read condition) (read whenTrue) (read whenFalse) span
  | .paren inner span => .paren (read inner) span
  | .assign target value span => .assign (read target) (read value) span
  | .cast type operand span => .cast type (read operand) span
  | .lambda span => .lambda span
  | .methodRef receiver member span => .methodRef (read receiver) member span
  | .missing span => .missing span

/-- The node with its references read. -/
def Stmt.toTree (readExpr : ExprId → Tree.Expr) (read : StmtId → Tree.Stmt) : Stmt → Tree.Stmt
  | .block statements span => .block (statements.map read) span
  | .ifElse condition whenTrue whenFalse span =>
    .ifElse (readExpr condition) (read whenTrue) (whenFalse.map read) span
  | .throws value span => .throws (readExpr value) span
  | .returns value span => .returns (value.map readExpr) span
  | .assert condition message span => .assert (readExpr condition) (message.map readExpr) span
  | .while condition body span => .while (readExpr condition) (read body) span
  | .local name init span => .local name (init.map readExpr) span
  | .expr value span => .expr (readExpr value) span
  | .skipped keyword span => .skipped keyword span
  | .empty span => .empty span

theorem Expr.toTree_congr (expr : Expr) (left right : ExprId → Tree.Expr)
    (agree : ∀ child ∈ expr.children, left child = right child) :
    expr.toTree left = expr.toTree right := by
  cases expr with
  | call callee arguments span =>
    have first := agree callee List.mem_cons_self
    have rest : arguments.map left = arguments.map right :=
      List.map_congr_left fun child member => agree child (List.mem_cons_of_mem _ member)
    simp only [toTree, first, rest]
  | new type operands span | chain op operands span =>
    have rest : operands.map left = operands.map right := List.map_congr_left agree
    simp only [toTree, rest]
  | _ => simp_all [children, toTree]

theorem Stmt.toTree_congr (stmt : Stmt) (leftExpr rightExpr : ExprId → Tree.Expr)
    (left right : StmtId → Tree.Stmt)
    (agreeExpr : ∀ child ∈ stmt.childExprs, leftExpr child = rightExpr child)
    (agree : ∀ child ∈ stmt.childStmts, left child = right child) :
    stmt.toTree leftExpr left = stmt.toTree rightExpr right := by
  cases stmt with
  | block statements span =>
    have rest : statements.map left = statements.map right := List.map_congr_left agree
    simp only [toTree, rest]
  | ifElse condition whenTrue whenFalse span =>
    cases whenFalse <;> simp_all [childStmts, childExprs, toTree]
  | returns value span => cases value <;> simp_all [childExprs, toTree]
  | assert condition message span => cases message <;> simp_all [childExprs, toTree]
  | «local» name init span => cases init <;> simp_all [childExprs, toTree]
  | _ => simp_all [childStmts, childExprs, toTree]

namespace Tree

/-- Reads an expression that nests less than `depth` deep. -/
def Expr.readWithin (exprs : Array MethodContracts.Expr) : Nat → ExprId → Expr
  | 0, _ => .missing ⟨0, 0⟩
  | depth + 1, id =>
    match exprs[id.index]? with
    | some expr => expr.toTree (readWithin exprs depth)
    | none => .missing ⟨0, 0⟩

/-- The tree of an expression. -/
def Expr.read (exprs : Array MethodContracts.Expr) (id : ExprId) : Expr :=
  readWithin exprs (id.index + 1) id

/-- Reads a statement that nests less than `depth` deep. -/
def Stmt.readWithin (stmts : Array MethodContracts.Stmt) (exprs : Array MethodContracts.Expr) :
    Nat → StmtId → Stmt
  | 0, _ => .empty ⟨0, 0⟩
  | depth + 1, id =>
    match stmts[id.index]? with
    | some stmt => stmt.toTree (Expr.read exprs) (readWithin stmts exprs depth)
    | none => .empty ⟨0, 0⟩

/-- The tree of a statement. -/
def Stmt.read (stmts : Array MethodContracts.Stmt) (exprs : Array MethodContracts.Expr)
    (id : StmtId) : Stmt :=
  readWithin stmts exprs (id.index + 1) id

end Tree

namespace Body

def exprTree (body : Body) (id : ExprId) : Tree.Expr := Tree.Expr.read body.exprs id

def stmtTree (body : Body) (id : StmtId) : Tree.Stmt := Tree.Stmt.read body.stmts body.exprs id

/-- The tree of the whole body. -/
def tree (body : Body) : Tree.Stmt := body.stmtTree body.root

end Body

/-! ## Reading follows references -/

/-- Every expression refers to expressions before it. -/
def ExprsDescend (exprs : Array Expr) : Prop :=
  ∀ (parent : Nat) (expr : Expr), exprs[parent]? = some expr →
    ∀ child ∈ expr.children, child.index < parent

/-- Every statement refers to statements before it. -/
def StmtsDescend (stmts : Array Stmt) : Prop :=
  ∀ (parent : Nat) (stmt : Stmt), stmts[parent]? = some stmt →
    ∀ child ∈ stmt.childStmts, child.index < parent

namespace Tree

/-- Reading looks only at the places up to the one it starts from. -/
theorem Expr.readWithin_eq (left right : Array MethodContracts.Expr) (descend : ExprsDescend left)
    (bound : Nat) (same : ∀ place : Nat, place < bound → left[place]? = right[place]?)
    (leftDepth rightDepth : Nat) (id : ExprId) (inside : id.index < bound)
    (leftDeep : id.index < leftDepth) (rightDeep : id.index < rightDepth) :
    readWithin left leftDepth id = readWithin right rightDepth id := by
  -- By induction on one depth: children lie before their parent, so both depths reach them.
  induction leftDepth generalizing rightDepth id with
  | zero => omega
  | succ leftDepth ih =>
    obtain ⟨rightDepth, rfl⟩ : ∃ n, rightDepth = n + 1 := ⟨rightDepth - 1, by omega⟩
    simp only [readWithin, ← same id.index inside]
    cases found : left[id.index]? with
    | none => rfl
    | some expr =>
      apply expr.toTree_congr
      intro child member
      have before := descend id.index expr found child member
      exact ih rightDepth child (by omega) (by omega) (by omega)

theorem Expr.read_eq_toTree (exprs : Array MethodContracts.Expr) (descend : ExprsDescend exprs)
    (id : ExprId) (expr : MethodContracts.Expr) (found : exprs[id.index]? = some expr) :
    read exprs id = expr.toTree (read exprs) := by
  simp only [read, readWithin, found]
  apply expr.toTree_congr
  intro child member
  have before := descend id.index expr found child member
  -- A child is read one level less deep here than on its own.
  exact readWithin_eq exprs exprs descend (id.index + 1) (fun _ _ => rfl) _ _ child
    (by omega) before (by omega)

/-- Statements are read alike wherever they and their expressions are the same. -/
theorem Stmt.readWithin_eq (left right : Array MethodContracts.Stmt)
    (leftExprs rightExprs : Array MethodContracts.Expr) (descend : StmtsDescend left)
    (sameExprs : ∀ (place : Nat) (stmt : MethodContracts.Stmt), left[place]? = some stmt →
      ∀ child ∈ stmt.childExprs, Expr.read leftExprs child = Expr.read rightExprs child)
    (bound : Nat) (same : ∀ place : Nat, place < bound → left[place]? = right[place]?)
    (leftDepth rightDepth : Nat) (id : StmtId) (inside : id.index < bound)
    (leftDeep : id.index < leftDepth) (rightDeep : id.index < rightDepth) :
    readWithin left leftExprs leftDepth id = readWithin right rightExprs rightDepth id := by
  induction leftDepth generalizing rightDepth id with
  | zero => omega
  | succ leftDepth ih =>
    -- Children stand before their parent, so one level less is deep enough for them.
    obtain ⟨rightDepth, rfl⟩ : ∃ n, rightDepth = n + 1 := ⟨rightDepth - 1, by omega⟩
    simp only [readWithin, ← same id.index inside]
    cases found : left[id.index]? with
    | none => rfl
    | some stmt =>
      apply stmt.toTree_congr
      · exact sameExprs id.index stmt found
      · intro child member
        have before := descend id.index stmt found child member
        exact ih rightDepth child (by omega) (by omega) (by omega)

theorem Stmt.read_eq_toTree (stmts : Array MethodContracts.Stmt)
    (exprs : Array MethodContracts.Expr) (descend : StmtsDescend stmts)
    (id : StmtId) (stmt : MethodContracts.Stmt) (found : stmts[id.index]? = some stmt) :
    read stmts exprs id = stmt.toTree (Expr.read exprs) (read stmts exprs) := by
  simp only [read, readWithin, found]
  apply stmt.toTree_congr
  · intro child member
    rfl
  · intro child member
    have before := descend id.index stmt found child member
    exact readWithin_eq stmts stmts exprs exprs descend (fun _ _ _ _ _ => rfl) (id.index + 1)
      (fun _ _ => rfl) _ _ child (by omega) before (by omega)

end Tree

namespace Body

theorem exprTree_eq (body : Body) (valid : body.Valid) (id : ExprId) (expr : Expr)
    (found : body.expr? id = some expr) : body.exprTree id = expr.toTree body.exprTree :=
  Tree.Expr.read_eq_toTree body.exprs valid.expr_lt id expr found

theorem stmtTree_eq (body : Body) (valid : body.Valid) (id : StmtId) (stmt : Stmt)
    (found : body.stmt? id = some stmt) :
    body.stmtTree id = stmt.toTree body.exprTree body.stmtTree :=
  Tree.Stmt.read_eq_toTree body.stmts body.exprs valid.stmt_lt id stmt found

end Body
end MethodContracts
