import MethodContracts.Body.Builder
import MethodContracts.Tree.Basic

/-!
# From trees to arenas

A node is added after what it refers to, which is added from left to right. So
every reference points back, and the root is the last statement.
-/
namespace MethodContracts.Tree

mutual

def Expr.allocate : Expr → Builder ExprId
  | .name word span => Builder.addExpr (.name word span)
  | .literal kind text span => Builder.addExpr (.literal kind text span)
  | .this span => Builder.addExpr (.this span)
  | .field receiver member span => do
    let receiver ← allocate receiver
    Builder.addExpr (.field receiver member span)
  | .index array position span => do
    let array ← allocate array
    let position ← allocate position
    Builder.addExpr (.index array position span)
  | .call callee arguments span => do
    let callee ← allocate callee
    let arguments ← allocateList arguments
    Builder.addExpr (.call callee arguments span)
  | .new type arguments span => do
    let arguments ← allocateList arguments
    Builder.addExpr (.new type arguments span)
  | .unary op operand span => do
    let operand ← allocate operand
    Builder.addExpr (.unary op operand span)
  | .chain op operands span => do
    let operands ← allocateList operands
    Builder.addExpr (.chain op operands span)
  | .instanceOf operand type span => do
    let operand ← allocate operand
    Builder.addExpr (.instanceOf operand type span)
  | .conditional condition whenTrue whenFalse span => do
    let condition ← allocate condition
    let whenTrue ← allocate whenTrue
    let whenFalse ← allocate whenFalse
    Builder.addExpr (.conditional condition whenTrue whenFalse span)
  | .paren inner span => do
    let inner ← allocate inner
    Builder.addExpr (.paren inner span)
  | .assign target value span => do
    let target ← allocate target
    let value ← allocate value
    Builder.addExpr (.assign target value span)
  | .cast type operand span => do
    let operand ← allocate operand
    Builder.addExpr (.cast type operand span)
  | .lambda span => Builder.addExpr (.lambda span)
  | .methodRef receiver member span => do
    let receiver ← allocate receiver
    Builder.addExpr (.methodRef receiver member span)
  | .missing span => Builder.addExpr (.missing span)

def Expr.allocateList : List Expr → Builder (List ExprId)
  | [] => pure []
  | expr :: exprs => do
    let id ← allocate expr
    let ids ← allocateList exprs
    return id :: ids

end

def Expr.allocateOption : Option Expr → Builder (Option ExprId)
  | none => pure none
  | some expr => do
    let id ← expr.allocate
    return some id

mutual

def Stmt.allocate : Stmt → Builder StmtId
  | .block statements span => do
    let statements ← allocateList statements
    Builder.addStmt (.block statements span)
  | .ifElse condition whenTrue whenFalse span => do
    let condition ← condition.allocate
    let whenTrue ← allocate whenTrue
    let whenFalse ← allocateOption whenFalse
    Builder.addStmt (.ifElse condition whenTrue whenFalse span)
  | .throws value span => do
    let value ← value.allocate
    Builder.addStmt (.throws value span)
  | .returns value span => do
    let value ← Expr.allocateOption value
    Builder.addStmt (.returns value span)
  | .assert condition message span => do
    let condition ← condition.allocate
    let message ← Expr.allocateOption message
    Builder.addStmt (.assert condition message span)
  | .while condition body span => do
    let condition ← condition.allocate
    let body ← allocate body
    Builder.addStmt (.while condition body span)
  | .local name init span => do
    let init ← Expr.allocateOption init
    Builder.addStmt (.local name init span)
  | .expr value span => do
    let value ← value.allocate
    Builder.addStmt (.expr value span)
  | .skipped keyword span => Builder.addStmt (.skipped keyword span)
  | .empty span => Builder.addStmt (.empty span)

def Stmt.allocateOption : Option Stmt → Builder (Option StmtId)
  | none => pure none
  | some statement => do
    let id ← allocate statement
    return some id

def Stmt.allocateList : List Stmt → Builder (List StmtId)
  | [] => pure []
  | statement :: statements => do
    let id ← allocate statement
    let ids ← allocateList statements
    return id :: ids

end

/-- The body that holds a tree. -/
def Stmt.toBody (tree : Stmt) : Body := tree.allocate.toBody

end MethodContracts.Tree
