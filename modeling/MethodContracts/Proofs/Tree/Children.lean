import MethodContracts.Tree.Basic

/-!
# The parts of a tree

What a node of a tree consists of, and induction on it: a property that passes
from all parts of a node to the node holds of every tree.
-/
namespace MethodContracts.Tree

namespace Expr

/-- The expressions directly below an expression, in order. -/
def children : Expr → List Expr
  | .name _ _ | .literal _ _ _ | .this _ | .lambda _ | .missing _ => []
  | .field receiver _ _ | .methodRef receiver _ _ => [receiver]
  | .index array position _ => [array, position]
  | .call callee arguments _ => callee :: arguments
  | .new _ arguments _ => arguments
  | .unary _ operand _ | .instanceOf operand _ _ | .paren operand _ | .cast _ operand _ => [operand]
  | .chain _ operands _ => operands
  | .conditional condition whenTrue whenFalse _ => [condition, whenTrue, whenFalse]
  | .assign target value _ => [target, value]

private theorem sizeOf_child (expr child : Expr) (member : child ∈ expr.children) :
    sizeOf child < sizeOf expr := by
  cases expr with
  | call callee arguments span =>
    rcases List.mem_cons.mp member with rfl | member
    · simp only [call.sizeOf_spec]
      omega
    · have smaller : sizeOf child < sizeOf arguments := List.sizeOf_lt_of_mem member
      simp only [call.sizeOf_spec]
      omega
  | new type arguments span =>
    have smaller : sizeOf child < sizeOf arguments := List.sizeOf_lt_of_mem member
    simp only [new.sizeOf_spec]
    omega
  | chain op operands span =>
    have smaller : sizeOf child < sizeOf operands := List.sizeOf_lt_of_mem member
    simp only [chain.sizeOf_spec]
    omega
  | index | assign =>
    simp only [children, List.mem_cons, List.not_mem_nil, or_false] at member
    rcases member with rfl | rfl <;> simp only [index.sizeOf_spec, assign.sizeOf_spec] <;> omega
  | conditional =>
    simp only [children, List.mem_cons, List.not_mem_nil, or_false] at member
    rcases member with rfl | rfl | rfl <;> simp only [conditional.sizeOf_spec] <;> omega
  | name | literal | this | lambda | missing => cases member
  | field | unary | instanceOf | paren | cast | methodRef =>
    cases List.mem_singleton.mp member
    simp only [field.sizeOf_spec, unary.sizeOf_spec, instanceOf.sizeOf_spec, paren.sizeOf_spec,
      cast.sizeOf_spec, methodRef.sizeOf_spec]
    omega

/-- What passes from the parts of every expression to the expression holds of all. -/
@[elab_as_elim]
theorem byChildren {motive : Expr → Prop}
    (step : ∀ expr : Expr, (∀ child ∈ expr.children, motive child) → motive expr)
    (expr : Expr) : motive expr :=
  step expr fun child member =>
    have _smaller := sizeOf_child expr child member
    byChildren step child
termination_by sizeOf expr

end Expr

namespace Stmt

/-- The statements directly below a statement, in order. -/
def children : Stmt → List Stmt
  | .block statements _ => statements
  | .ifElse _ whenTrue whenFalse _ => whenTrue :: whenFalse.toList
  | .while _ body _ => [body]
  | .throws _ _ | .returns _ _ | .assert _ _ _ | .local _ _ _ | .expr _ _ | .skipped _ _
  | .empty _ => []

private theorem sizeOf_child (stmt child : Stmt) (member : child ∈ stmt.children) :
    sizeOf child < sizeOf stmt := by
  cases stmt with
  | block statements span =>
    have smaller : sizeOf child < sizeOf statements := List.sizeOf_lt_of_mem member
    simp only [block.sizeOf_spec]
    omega
  | ifElse condition whenTrue whenFalse span =>
    rcases List.mem_cons.mp member with rfl | member
    · simp only [ifElse.sizeOf_spec]
      omega
    · cases whenFalse with
      | none => cases member
      | some whenFalse =>
        cases List.mem_singleton.mp member
        simp only [ifElse.sizeOf_spec, Option.some.sizeOf_spec]
        omega
  | «while» condition body span =>
    cases List.mem_singleton.mp member
    simp only [while.sizeOf_spec]
    omega
  | throws | returns | assert | «local» | expr | skipped | empty => cases member

/-- What passes from the parts of every statement to the statement holds of all. -/
@[elab_as_elim]
theorem byChildren {motive : Stmt → Prop}
    (step : ∀ stmt : Stmt, (∀ child ∈ stmt.children, motive child) → motive stmt)
    (stmt : Stmt) : motive stmt :=
  step stmt fun child member =>
    have _smaller := sizeOf_child stmt child member
    byChildren step child
termination_by sizeOf stmt

/-- The statements that a body with this root consists of. -/
def statements : Stmt → List Stmt
  | .block statements _ => statements
  | stmt => [stmt]

end Stmt

end MethodContracts.Tree
