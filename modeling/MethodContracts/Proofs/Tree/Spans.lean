import MethodContracts.Proofs.Tree.Children

/-!
# Trees without their spans

What is left of a tree when it is forgotten where in a text its nodes stand: trees
are equal up to their spans if they are equal without them.
-/
namespace MethodContracts.Tree

namespace Expr

mutual

/-- The expression with one and the same span at all of its nodes. -/
def withoutSpans : Expr → Expr
  | .name word _ => .name word (.point 0)
  | .literal kind text _ => .literal kind text (.point 0)
  | .this _ => .this (.point 0)
  | .field receiver member _ => .field receiver.withoutSpans member (.point 0)
  | .index array position _ => .index array.withoutSpans position.withoutSpans (.point 0)
  | .call callee arguments _ =>
    .call callee.withoutSpans (allWithoutSpans arguments) (.point 0)
  | .new type arguments _ => .new type (allWithoutSpans arguments) (.point 0)
  | .unary op operand _ => .unary op operand.withoutSpans (.point 0)
  | .chain op operands _ => .chain op (allWithoutSpans operands) (.point 0)
  | .instanceOf operand type _ => .instanceOf operand.withoutSpans type (.point 0)
  | .conditional condition whenTrue whenFalse _ =>
    .conditional condition.withoutSpans whenTrue.withoutSpans whenFalse.withoutSpans (.point 0)
  | .paren inner _ => .paren inner.withoutSpans (.point 0)
  | .assign target value _ => .assign target.withoutSpans value.withoutSpans (.point 0)
  | .cast type operand _ => .cast type operand.withoutSpans (.point 0)
  | .lambda _ => .lambda (.point 0)
  | .methodRef receiver member _ => .methodRef receiver.withoutSpans member (.point 0)
  | .missing _ => .missing (.point 0)

def allWithoutSpans : List Expr → List Expr
  | [] => []
  | expr :: exprs => expr.withoutSpans :: allWithoutSpans exprs

end

theorem allWithoutSpans_eq (exprs : List Expr) :
    allWithoutSpans exprs = exprs.map withoutSpans := by
  induction exprs with
  | nil => rfl
  | cons expr exprs ih => simp only [allWithoutSpans, ih, List.map_cons]

theorem withoutSpans_chain (op : BinaryOp) (operands : List Expr) (span : Span) :
    (chain op operands span).withoutSpans =
      chain op (operands.map withoutSpans) (.point 0) := by
  rw [withoutSpans, allWithoutSpans_eq]

end Expr

namespace Stmt

mutual

/-- The statement with one and the same span at all of its nodes. -/
def withoutSpans : Stmt → Stmt
  | .block statements _ => .block (allWithoutSpans statements) (.point 0)
  | .ifElse condition whenTrue whenFalse _ =>
    .ifElse condition.withoutSpans whenTrue.withoutSpans (optionWithoutSpans whenFalse) (.point 0)
  | .throws value _ => .throws value.withoutSpans (.point 0)
  | .returns value _ => .returns (value.map Expr.withoutSpans) (.point 0)
  | .assert condition message _ =>
    .assert condition.withoutSpans (message.map Expr.withoutSpans) (.point 0)
  | .while condition body _ => .while condition.withoutSpans body.withoutSpans (.point 0)
  | .local name init _ => .local name (init.map Expr.withoutSpans) (.point 0)
  | .expr value _ => .expr value.withoutSpans (.point 0)
  | .skipped keyword _ => .skipped keyword (.point 0)
  | .empty _ => .empty (.point 0)

def optionWithoutSpans : Option Stmt → Option Stmt
  | none => none
  | some stmt => some stmt.withoutSpans

def allWithoutSpans : List Stmt → List Stmt
  | [] => []
  | stmt :: stmts => stmt.withoutSpans :: allWithoutSpans stmts

end

theorem allWithoutSpans_eq (stmts : List Stmt) :
    allWithoutSpans stmts = stmts.map withoutSpans := by
  induction stmts with
  | nil => rfl
  | cons stmt stmts ih => simp only [allWithoutSpans, ih, List.map_cons]

/-- The parts of a statement stay in their places. -/
theorem children_withoutSpans (stmt : Stmt) :
    stmt.withoutSpans.children = stmt.children.map withoutSpans := by
  cases stmt with
  | block statements span => exact allWithoutSpans_eq statements
  | ifElse condition whenTrue whenFalse span => cases whenFalse <;> rfl
  | _ => rfl

theorem statements_withoutSpans (stmt : Stmt) :
    stmt.withoutSpans.statements = stmt.statements.map withoutSpans := by
  cases stmt with
  | block statements span => exact allWithoutSpans_eq statements
  | _ => rfl

end Stmt

end MethodContracts.Tree
