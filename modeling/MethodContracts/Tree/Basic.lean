import MethodContracts.Body.Basic

/-!
# Bodies as trees

A tree holds what a body's arenas hold, with every reference replaced by what
it refers to.
-/
namespace MethodContracts.Tree

inductive Expr where
  | name (name : String) (span : Span)
  | literal (literal : Literal) (text : String) (span : Span)
  | this (span : Span)
  | field (receiver : Expr) (name : String) (span : Span)
  | index (array position : Expr) (span : Span)
  | call (callee : Expr) (arguments : List Expr) (span : Span)
  | new (type : String) (arguments : List Expr) (span : Span)
  | unary (op : UnaryOp) (operand : Expr) (span : Span)
  | chain (op : BinaryOp) (operands : List Expr) (span : Span)
  | instanceOf (operand : Expr) (type : String) (span : Span)
  | conditional (condition whenTrue whenFalse : Expr) (span : Span)
  | paren (inner : Expr) (span : Span)
  | assign (target value : Expr) (span : Span)
  | cast (type : String) (operand : Expr) (span : Span)
  | lambda (span : Span)
  | methodRef (receiver : Expr) (name : String) (span : Span)
  | missing (span : Span)

inductive Stmt where
  | block (statements : List Stmt) (span : Span)
  | ifElse (condition : Expr) (whenTrue : Stmt) (whenFalse : Option Stmt) (span : Span)
  | throws (value : Expr) (span : Span)
  | returns (value : Option Expr) (span : Span)
  | assert (condition : Expr) (message : Option Expr) (span : Span)
  | while (condition : Expr) (body : Stmt) (span : Span)
  | local (name : String) (init : Option Expr) (span : Span)
  | expr (expr : Expr) (span : Span)
  | skipped (keyword : String) (span : Span)
  | empty (span : Span)

/-- The operands that an operand contributes to a chain of `op`: its own if it
is such a chain, and itself otherwise. -/
def Expr.operandsFor (op : BinaryOp) : Expr → List Expr
  | .chain other operands span => if other = op then operands else [.chain other operands span]
  | expr => [expr]

end MethodContracts.Tree
