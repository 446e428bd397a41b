import MethodContracts.Span

/-!
# Method bodies

A body keeps its statements and its expressions in two arenas. A node refers to
another by its place in the arena, so a body is plain data and may come from
elsewhere; `Body.Validity` says when its references make sense.
-/
namespace MethodContracts

/-- The place of a statement in its arena. -/
structure StmtId where
  index : Nat
deriving DecidableEq, Repr, Inhabited

/-- The place of an expression in its arena. -/
structure ExprId where
  index : Nat
deriving DecidableEq, Repr, Inhabited

def StmtId.display (id : StmtId) : String := s!"StmtId({id.index})"

def ExprId.display (id : ExprId) : String := s!"ExprId({id.index})"

inductive Literal where
  | null
  | isTrue
  | isFalse
  | int
  | string
  | char
deriving DecidableEq, Repr

inductive UnaryOp where
  | not
  | neg
  | plus
  | bitNot
  | preIncrement
  | preDecrement
  | postIncrement
  | postDecrement
deriving DecidableEq, Repr

inductive BinaryOp where
  | add
  | sub
  | mul
  | div
  | rem
  | equal
  | notEqual
  | less
  | greater
  | lessEqual
  | greaterEqual
  | bitAnd
  | bitOr
  | bitXor
  | and
  | or
deriving DecidableEq, Repr

inductive Expr where
  | name (name : String) (span : Span)
  | literal (literal : Literal) (text : String) (span : Span)
  | this (span : Span)
  | field (receiver : ExprId) (name : String) (span : Span)
  | index (array position : ExprId) (span : Span)
  | call (callee : ExprId) (arguments : List ExprId) (span : Span)
  | new (type : String) (arguments : List ExprId) (span : Span)
  | unary (op : UnaryOp) (operand : ExprId) (span : Span)
  /-- A chain of one operator. -/
  | chain (op : BinaryOp) (operands : List ExprId) (span : Span)
  | instanceOf (operand : ExprId) (type : String) (span : Span)
  | conditional (condition whenTrue whenFalse : ExprId) (span : Span)
  | paren (inner : ExprId) (span : Span)
  | assign (target value : ExprId) (span : Span)
  | cast (type : String) (operand : ExprId) (span : Span)
  | lambda (span : Span)
  | methodRef (receiver : ExprId) (name : String) (span : Span)
  | missing (span : Span)
deriving DecidableEq, Repr

namespace Expr

def span : Expr → Span
  | .name _ span | .literal _ _ span | .this span | .field _ _ span | .index _ _ span
  | .call _ _ span | .new _ _ span | .unary _ _ span | .chain _ _ span | .instanceOf _ _ span
  | .conditional _ _ _ span | .paren _ span | .assign _ _ span | .cast _ _ span | .lambda span
  | .methodRef _ _ span | .missing span => span

/-- The expressions that an expression refers to, in order. -/
def children : Expr → List ExprId
  | .name _ _ | .literal _ _ _ | .this _ | .lambda _ | .missing _ => []
  | .field receiver _ _ | .methodRef receiver _ _ => [receiver]
  | .index array position _ => [array, position]
  | .call callee arguments _ => callee :: arguments
  | .new _ arguments _ => arguments
  | .unary _ operand _ | .instanceOf operand _ _ | .paren operand _ | .cast _ operand _ => [operand]
  | .chain _ operands _ => operands
  | .conditional condition whenTrue whenFalse _ => [condition, whenTrue, whenFalse]
  | .assign target value _ => [target, value]

end Expr

inductive Stmt where
  | block (statements : List StmtId) (span : Span)
  | ifElse (condition : ExprId) (whenTrue : StmtId) (whenFalse : Option StmtId) (span : Span)
  | throws (value : ExprId) (span : Span)
  | returns (value : Option ExprId) (span : Span)
  | assert (condition : ExprId) (message : Option ExprId) (span : Span)
  | while (condition : ExprId) (body : StmtId) (span : Span)
  | local (name : String) (init : Option ExprId) (span : Span)
  | expr (expr : ExprId) (span : Span)
  /-- Only the keyword is kept. -/
  | skipped (keyword : String) (span : Span)
  | empty (span : Span)
deriving DecidableEq, Repr

namespace Stmt

def span : Stmt → Span
  | .block _ span | .ifElse _ _ _ span | .throws _ span | .returns _ span | .assert _ _ span
  | .while _ _ span | .local _ _ span | .expr _ span | .skipped _ span | .empty span => span

/-- The statements that a statement refers to, in order. -/
def childStmts : Stmt → List StmtId
  | .block statements _ => statements
  | .ifElse _ whenTrue whenFalse _ => whenTrue :: whenFalse.toList
  | .while _ body _ => [body]
  | .throws _ _ | .returns _ _ | .assert _ _ _ | .local _ _ _ | .expr _ _ | .skipped _ _
  | .empty _ => []

/-- The expressions that a statement refers to, in order. -/
def childExprs : Stmt → List ExprId
  | .ifElse condition _ _ _ | .while condition _ _ => [condition]
  | .throws value _ | .expr value _ => [value]
  | .returns value _ | .local _ value _ => value.toList
  | .assert condition message _ => condition :: message.toList
  | .block _ _ | .skipped _ _ | .empty _ => []

end Stmt

structure Body where
  root : StmtId
  stmts : Array Stmt
  exprs : Array Expr
deriving DecidableEq, Repr

namespace Body

/-- A body of one empty block. -/
def empty (span : Span) : Body := ⟨⟨0⟩, #[.block [] span], #[]⟩

def stmt? (body : Body) (id : StmtId) : Option Stmt := body.stmts[id.index]?

def expr? (body : Body) (id : ExprId) : Option Expr := body.exprs[id.index]?

/-- The statements of the root block, or the root itself if it is no block;
`none` if the root does not exist. -/
def statements? (body : Body) : Option (List StmtId) :=
  (body.stmt? body.root).map fun
    | .block statements _ => statements
    | _ => [body.root]

end Body
end MethodContracts
