import MethodContracts.Proofs.Execution.Basic

/-!
# Two-valued bodies

Bodies that only ask of a parameter whether it is true, or only whether it is
`null`: guards that exit, and an exit at the end.
-/
namespace MethodContracts

/-- The kinds of parameters of a two-valued body. -/
inductive Kind where
  | boolean
  /-- Of which only matters whether it is `null`. -/
  | reference
deriving DecidableEq, Repr

/-- Whether a parameter of this kind may have the value. -/
def Kind.Has : Kind → Value → Prop
  | .boolean, value => ∃ truth, value = .ofBool truth
  | .reference, _ => True

/-- Whether a parameter of this kind may be compared with the value. -/
def Kind.Compares : Kind → Value → Prop
  | .boolean, value => ∃ truth, value = .ofBool truth
  | .reference, value => value = .null

/-- The result that says exactly how a statement completes. -/
def Completion.result? : Completion → Option Constraint
  | .returned (some .null) => some .null
  | .returned (some .isTrue) => some .isTrue
  | .returned (some .isFalse) => some .isFalse
  | .thrown => some .fail
  | _ => none

namespace Tree

/-- Two-valued conditions: boolean parameters, `true` and `false`, comparisons of a
boolean parameter with these and of a reference with `null`, and what `!`, `&&`,
`||`, `?:` and parentheses make of two-valued conditions. -/
inductive Expr.IsCondition (params : List String) (kinds : Nat → Kind) : Expr → Prop where
  | flag {word span slot} (named : params.idxOf? word = some slot)
    (boolean : kinds slot = .boolean) : IsCondition params kinds (.name word span)
  | literal {kind text span} (truth : kind = .isTrue ∨ kind = .isFalse) :
    IsCondition params kinds (.literal kind text span)
  | comparison {op left right span slot value} (comparison : op = .equal ∨ op = .notEqual)
    (compares : Compares params left right slot value) (kind : (kinds slot).Compares value) :
    IsCondition params kinds (.chain op [left, right] span)
  | paren {inner span} (condition : IsCondition params kinds inner) :
    IsCondition params kinds (.paren inner span)
  | not {operand span} (condition : IsCondition params kinds operand) :
    IsCondition params kinds (.unary .not operand span)
  | chain {op operands span} (logical : op = .and ∨ op = .or) (several : 2 ≤ operands.length)
    (conditions : ∀ operand ∈ operands, IsCondition params kinds operand) :
    IsCondition params kinds (.chain op operands span)
  | conditional {condition whenTrue whenFalse span} (decides : IsCondition params kinds condition)
    (first : IsCondition params kinds whenTrue) (second : IsCondition params kinds whenFalse) :
    IsCondition params kinds (.conditional condition whenTrue whenFalse span)

namespace Stmt

/-- Statements that end a two-valued body. -/
inductive IsExit (params : List String) (kinds : Nat → Kind) : Stmt → Prop where
  | returns {value span} (condition : value.IsCondition params kinds) :
    IsExit params kinds (.returns (some value) span)
  | returnsNull {text literalSpan span} :
    IsExit params kinds (.returns (some (.literal .null text literalSpan)) span)
  | throws {value span} : IsExit params kinds (.throws value span)
  | block {only span} (exit : IsExit params kinds only) : IsExit params kinds (.block [only] span)
  | ifElse {condition whenTrue whenFalse span} (decides : condition.IsCondition params kinds)
    (first : IsExit params kinds whenTrue) (second : IsExit params kinds whenFalse) :
    IsExit params kinds (.ifElse condition whenTrue (some whenFalse) span)

/-- The statements of a two-valued body: guards that exit, and an exit. -/
inductive IsTwoValued (params : List String) (kinds : Nat → Kind) : List Stmt → Prop where
  | exit {stmt} (exit : stmt.IsExit params kinds) : IsTwoValued params kinds [stmt]
  | guard {condition whenTrue span stmts} (decides : condition.IsCondition params kinds)
    (exit : whenTrue.IsExit params kinds) (rest : IsTwoValued params kinds stmts) :
    IsTwoValued params kinds (.ifElse condition whenTrue none span :: stmts)

end Stmt

end Tree
end MethodContracts
