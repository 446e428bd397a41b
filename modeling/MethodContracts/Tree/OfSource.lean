import MethodContracts.Source.Tree
import MethodContracts.Tree.Basic

/-!
# Bodies of source text as trees

Each node of the source tree becomes one node, but a binary operator whose left
operand is a chain of the same operator continues that chain. Parentheses are
nodes, so they end a chain. What a left operand contributes to the chain is a
parameter: where each contributes itself, every operator has two operands.
-/
namespace MethodContracts.Tree

def unaryOp : Source.UnaryOp → UnaryOp
  | .not => .not
  | .neg => .neg
  | .plus => .plus
  | .bitNot => .bitNot
  | .preIncrement => .preIncrement
  | .preDecrement => .preDecrement
  | .postIncrement => .postIncrement
  | .postDecrement => .postDecrement

def binaryOp : Source.BinaryOp → BinaryOp
  | .add => .add
  | .sub => .sub
  | .mul => .mul
  | .div => .div
  | .rem => .rem
  | .equal => .equal
  | .notEqual => .notEqual
  | .less => .less
  | .greater => .greater
  | .lessEqual => .lessEqual
  | .greaterEqual => .greaterEqual
  | .bitAnd => .bitAnd
  | .bitOr => .bitOr
  | .bitXor => .bitXor
  | .andAnd => .and
  | .orOr => .or

variable (left : BinaryOp → Expr → List Expr)

mutual

def Expr.ofSourceWith : Source.Expr → Expr
  | .name word span => .name word span
  | .number text span => .literal .int text span
  | .string text span => .literal .string text span
  | .char text span => .literal .char text span
  | .bool true span => .literal .isTrue "true" span
  | .bool false span => .literal .isFalse "false" span
  | .null span => .literal .null "null" span
  | .this span => .this span
  | .call callee arguments span => .call (ofSourceWith callee) (ofSourceWithList arguments) span
  | .field receiver member _ span => .field (ofSourceWith receiver) member span
  | .index array position span => .index (ofSourceWith array) (ofSourceWith position) span
  | .new type arguments span => .new type.text (ofSourceWithList arguments) span
  | .unary op operand span => .unary (unaryOp op) (ofSourceWith operand) span
  | .binary op first second span =>
    .chain (binaryOp op) (left (binaryOp op) (ofSourceWith first) ++ [ofSourceWith second]) span
  | .instanceOf operand type span => .instanceOf (ofSourceWith operand) type.text span
  | .conditional condition whenTrue whenFalse span =>
    .conditional (ofSourceWith condition) (ofSourceWith whenTrue) (ofSourceWith whenFalse) span
  | .assign target value span => .assign (ofSourceWith target) (ofSourceWith value) span
  | .paren inner span => .paren (ofSourceWith inner) span
  | .cast type operand span => .cast type.text (ofSourceWith operand) span
  | .lambda span => .lambda span
  | .methodRef receiver member span => .methodRef (ofSourceWith receiver) member span
  | .missing span => .missing span

def Expr.ofSourceWithList : List Source.Expr → List Expr
  | [] => []
  | expr :: exprs => ofSourceWith expr :: ofSourceWithList exprs

end

mutual

def Stmt.ofSourceWith : Source.Stmt → Stmt
  | .local _ name _ init span => .local name (init.map (Expr.ofSourceWith left)) span
  | .expr value span => .expr (Expr.ofSourceWith left value) span
  | .returns value span => .returns (value.map (Expr.ofSourceWith left)) span
  | .throws value span => .throws (Expr.ofSourceWith left value) span
  | .ifElse condition whenTrue whenFalse span =>
    .ifElse (Expr.ofSourceWith left condition) (ofSourceWith whenTrue)
      (ofSourceWithOption whenFalse) span
  | .assert condition message span =>
    .assert (Expr.ofSourceWith left condition) (message.map (Expr.ofSourceWith left)) span
  | .while condition body span =>
    .while (Expr.ofSourceWith left condition) (ofSourceWith body) span
  | .skipped keyword span => .skipped keyword span
  | .block statements span => .block (ofSourceWithList statements) span
  | .empty span => .empty span

def Stmt.ofSourceWithOption : Option Source.Stmt → Option Stmt
  | none => none
  | some statement => some (ofSourceWith statement)

def Stmt.ofSourceWithList : List Source.Stmt → List Stmt
  | [] => []
  | statement :: statements => ofSourceWith statement :: ofSourceWithList statements

end

/-- The tree of a source expression. -/
def Expr.ofSource : Source.Expr → Expr := ofSourceWith Expr.operandsFor

/-- The tree of a source statement. -/
def Stmt.ofSource : Source.Stmt → Stmt := ofSourceWith Expr.operandsFor

end MethodContracts.Tree
