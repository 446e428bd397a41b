import MethodContracts.Body.Basic

/-!
# Building bodies

A body is built by adding nodes to its arenas. Each addition yields the place
of the new node, and a node may refer to the places yielded before it.
-/
namespace MethodContracts

/-- The arenas of a body that is being built. -/
structure Arenas where
  stmts : Array Stmt
  exprs : Array Expr
deriving DecidableEq, Repr

namespace Arenas

def empty : Arenas := ⟨#[], #[]⟩

def finish (arenas : Arenas) (root : StmtId) : Body := ⟨root, arenas.stmts, arenas.exprs⟩

end Arenas

/-- Adds nodes to the arenas of a body. -/
abbrev Builder := StateM Arenas

namespace Builder

/-- Nodes that are built stand nowhere in a text. -/
def nowhere : Span := ⟨0, 0⟩

def addExpr (expr : Expr) : Builder ExprId := fun arenas =>
  (⟨arenas.exprs.size⟩, { arenas with exprs := arenas.exprs.push expr })

def addStmt (stmt : Stmt) : Builder StmtId := fun arenas =>
  (⟨arenas.stmts.size⟩, { arenas with stmts := arenas.stmts.push stmt })

def name (name : String) : Builder ExprId := addExpr (.name name nowhere)

def null : Builder ExprId := addExpr (.literal .null "null" nowhere)

def bool (value : Bool) : Builder ExprId :=
  addExpr (if value then .literal .isTrue "true" nowhere else .literal .isFalse "false" nowhere)

def int (value : Int) : Builder ExprId := addExpr (.literal .int (toString value) nowhere)

/-- A chain of one operator. -/
def chain (op : BinaryOp) (operands : List ExprId) : Builder ExprId :=
  addExpr (.chain op operands nowhere)

def binary (op : BinaryOp) (left right : ExprId) : Builder ExprId := chain op [left, right]

def not (operand : ExprId) : Builder ExprId := addExpr (.unary .not operand nowhere)

def paren (inner : ExprId) : Builder ExprId := addExpr (.paren inner nowhere)

def instanceOf (operand : ExprId) (type : String) : Builder ExprId :=
  addExpr (.instanceOf operand type nowhere)

def conditional (condition whenTrue whenFalse : ExprId) : Builder ExprId :=
  addExpr (.conditional condition whenTrue whenFalse nowhere)

/-- A call of what a simple name stands for. -/
def call (callee : String) (arguments : List ExprId) : Builder ExprId := do
  let callee ← name callee
  addExpr (.call callee arguments nowhere)

def block (statements : List StmtId) : Builder StmtId := addStmt (.block statements nowhere)

def returns (value : Option ExprId) : Builder StmtId := addStmt (.returns value nowhere)

def throws (value : ExprId) : Builder StmtId := addStmt (.throws value nowhere)

/-- Throws a new object of a class. -/
def throwsNew (type : String) : Builder StmtId := do
  let value ← addExpr (.new type [] nowhere)
  throws value

def ifElse (condition : ExprId) (whenTrue : StmtId) (whenFalse : Option StmtId) : Builder StmtId :=
  addStmt (.ifElse condition whenTrue whenFalse nowhere)

def assert (condition : ExprId) : Builder StmtId := addStmt (.assert condition none nowhere)

def exprStmt (expr : ExprId) : Builder StmtId := addStmt (.expr expr nowhere)

def skipped (keyword : String) : Builder StmtId := addStmt (.skipped keyword nowhere)

def toBody (builder : Builder StmtId) : Body :=
  let (root, arenas) := builder .empty
  arenas.finish root

end Builder
end MethodContracts
