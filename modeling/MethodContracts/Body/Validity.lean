import MethodContracts.Body.Basic

/-!
# Valid bodies

In a valid body the root exists, a statement refers to statements before it and
to expressions that exist, and an expression refers to expressions before it.
References therefore never run in a circle. The check reports the first fault:
the root, then statements in order, each with its statements before its
expressions, then expressions in order.
-/
namespace MethodContracts

/-- Why a body is not valid. -/
inductive BodyError where
  | rootOutOfRange (root : StmtId)
  | badStmtRef (parent : Nat) (child : StmtId)
  | badStmtExprRef (parent : Nat) (child : ExprId)
  | badExprRef (parent : Nat) (child : ExprId)
deriving DecidableEq, Repr

def BodyError.message : BodyError → String
  | .rootOutOfRange root => s!"root statement {root.display} is out of range"
  | .badStmtRef parent child =>
    s!"statement {parent} refers to statement {child.display} which is not allocated before it"
  | .badStmtExprRef parent child =>
    s!"statement {parent} refers to expression {child.display} which does not exist"
  | .badExprRef parent child =>
    s!"expression {parent} refers to expression {child.display} which is not allocated before it"

/-- The first fault of the statement at place `parent`. -/
def Stmt.fault? (exprCount parent : Nat) (stmt : Stmt) : Option BodyError :=
  match stmt.childStmts.find? fun child => parent ≤ child.index with
  | some child => some (.badStmtRef parent child)
  | none =>
    (stmt.childExprs.find? fun child => exprCount ≤ child.index).map (.badStmtExprRef parent)

/-- The first fault of the expression at place `parent`. -/
def Expr.fault? (parent : Nat) (expr : Expr) : Option BodyError :=
  (expr.children.find? fun child => parent ≤ child.index).map (.badExprRef parent)

namespace Body

def fault? (body : Body) : Option BodyError :=
  if body.stmts.size ≤ body.root.index then some (.rootOutOfRange body.root)
  else
    (body.stmts.toList.zipIdx.findSome? fun (stmt, parent) =>
        stmt.fault? body.exprs.size parent) <|>
      body.exprs.toList.zipIdx.findSome? fun (expr, parent) => expr.fault? parent

def validate (body : Body) : Except BodyError Unit :=
  match body.fault? with
  | some error => .error error
  | none => .ok ()

/-- All references of a body make sense. -/
structure Valid (body : Body) : Prop where
  root_lt : body.root.index < body.stmts.size
  stmt_lt : ∀ (parent : Nat) (stmt : Stmt), body.stmts[parent]? = some stmt →
    ∀ child ∈ stmt.childStmts, child.index < parent
  stmt_expr_lt : ∀ (parent : Nat) (stmt : Stmt), body.stmts[parent]? = some stmt →
    ∀ child ∈ stmt.childExprs, child.index < body.exprs.size
  expr_lt : ∀ (parent : Nat) (expr : Expr), body.exprs[parent]? = some expr →
    ∀ child ∈ expr.children, child.index < parent

end Body
end MethodContracts
