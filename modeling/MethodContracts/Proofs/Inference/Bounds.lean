import Mathlib.Algebra.Group.Nat.Defs
import MethodContracts.Proofs.Inference.Trees

/-!
# How many contracts there are

Only the use of a parameter can make two contracts of one state, so every use at
most doubles their number. A limit of two to the number of uses is never reached.
-/
namespace MethodContracts.Tree

namespace Expr

variable (params : List String)

mutual

/-- The number of uses of parameters in an expression. -/
def uses : Expr → Nat
  | .name word _ => if (params.idxOf? word).isSome then 1 else 0
  | .literal _ _ _ | .this _ | .lambda _ | .missing _ => 0
  | .field inner _ _ | .methodRef inner _ _ | .unary _ inner _ | .instanceOf inner _ _
  | .paren inner _ | .cast _ inner _ => inner.uses
  | .index left right _ | .assign left right _ => left.uses + right.uses
  | .call callee arguments _ => callee.uses + usesAll arguments
  | .new _ arguments _ => usesAll arguments
  | .chain _ operands _ => usesAll operands
  | .conditional condition whenTrue whenFalse _ => condition.uses + (whenTrue.uses + whenFalse.uses)

/-- The number of uses of parameters in expressions. -/
def usesAll : List Expr → Nat
  | [] => 0
  | expr :: exprs => expr.uses + usesAll exprs

end

end Expr

namespace Stmt

variable (params : List String)

mutual

/-- The number of uses of parameters in a statement. -/
def uses : Stmt → Nat
  | .block statements _ => usesAll statements
  | .ifElse condition whenTrue none _ => condition.uses params + whenTrue.uses
  | .ifElse condition whenTrue (some whenFalse) _ =>
    condition.uses params + (whenTrue.uses + whenFalse.uses)
  | .throws value _ | .returns (some value) _ | .local _ (some value) _ | .expr value _
  | .assert value none _ => value.uses params
  | .assert condition (some message) _ => condition.uses params + message.uses params
  | .while condition body _ => condition.uses params + body.uses
  | .returns none _ | .local _ none _ | .skipped _ _ | .empty _ => 0

/-- The number of uses of parameters in statements. -/
def usesAll : List Stmt → Nat
  | [] => 0
  | stmt :: stmts => stmt.uses + usesAll stmts

end

end Stmt

/-! ## Doubling -/

/-- No contract is handed on with both of two results. -/
theorem split_le {left right : Constraint} (apart : left ≠ right) (contracts : List Contract) :
    (Contract.argumentsWith left contracts).length +
      (Contract.argumentsWith right contracts).length ≤ contracts.length := by
  simp only [Contract.argumentsWith, List.length_map]
  -- A contract is handed on with one of the results at most, so it counts once.
  induction contracts with
  | nil => exact Nat.le_refl 0
  | cons contract contracts ih =>
    simp only [List.filter_cons, beq_iff_eq, List.length_cons]
    by_cases first : contract.result = left
    · have second : contract.result ≠ right := first ▸ apart
      simp only [first, apart, ite_true, ite_false, List.length_cons]
      omega
    · simp only [first, ite_false]
      split
      next =>
        simp only [List.length_cons]
        omega
      next => omega

/-- Negation drops contracts whose result is not boolean. -/
theorem length_negated_le (contracts : List Contract) :
    (Contract.negated contracts).length ≤ contracts.length := by
  rw [Contract.negated, List.length_map]
  exact List.length_filter_le _ _

/-- When every use doubles, two parts stay below the bound of the whole. -/
private theorem doubled_le {first second split states before : Nat} (left right : Nat)
    (shared : first + second ≤ split) (bound : split ≤ states * 2 ^ before) :
    first * 2 ^ left + second * 2 ^ right ≤ states * 2 ^ (before + (left + right)) := by
  have leftPos : 1 ≤ 2 ^ left := Nat.one_le_two_pow
  have rightPos : 1 ≤ 2 ^ right := Nat.one_le_two_pow
  -- Both parts are rounded up to the uses of the two together.
  calc first * 2 ^ left + second * 2 ^ right
      ≤ first * (2 ^ left * 2 ^ right) + second * (2 ^ left * 2 ^ right) := by
        apply Nat.add_le_add
        · exact Nat.mul_le_mul_left first (Nat.le_mul_of_pos_right _ rightPos)
        · exact Nat.mul_le_mul_left second (Nat.le_mul_of_pos_left _ leftPos)
    _ = (first + second) * (2 ^ left * 2 ^ right) := (Nat.add_mul _ _ _).symm
    _ ≤ (states * 2 ^ before) * (2 ^ left * 2 ^ right) :=
        Nat.mul_le_mul_right _ (Nat.le_trans shared bound)
    _ = states * 2 ^ (before + (left + right)) := by rw [Nat.pow_add, Nat.pow_add, Nat.mul_assoc]

namespace Expr

variable {params : List String} {limit : Option Nat}

private theorem uses_of_slot? {expr : Expr} {slot : Nat} (found : expr.slot? params = some slot) :
    expr.uses params = 1 := by
  obtain ⟨word, span, rfl, named⟩ := slot?_eq_some found
  simp only [uses, named, Option.isSome_some, ite_true]

private theorem uses_of_comparison? {left right : Expr} {slot : Nat} {constraint : Constraint}
    (found : left.comparison? params right = some (slot, constraint)) :
    1 ≤ left.uses params + right.uses params := by
  rcases comparison?_eq_some found with ⟨named, _⟩ | ⟨named, _⟩
  · have counted := uses_of_slot? named
    omega
  · have counted := uses_of_slot? named
    omega

/-- There is room for both contracts of a comparison, as one operand is a parameter. -/
private theorem two_le_of_comparison? {left right : Expr} {slot : Nat} {constraint : Constraint}
    (found : left.comparison? params right = some (slot, constraint)) :
    2 ≤ 2 ^ usesAll params [left, right] := by
  have counted := uses_of_comparison? found
  calc 2 = 2 ^ 1 := rfl
    _ ≤ 2 ^ usesAll params [left, right] := by
      apply Nat.pow_le_pow_right Nat.two_pos
      simp only [usesAll]
      omega

/-- An atomic expression that makes two contracts of a state uses a parameter. -/
private theorem length_yield_le (expr : Expr) (state : Arguments) :
    ((expr.atom params).yield state).length ≤ 2 ^ expr.uses params := by
  have asks := expr.atom_asks params
  generalize expr.atom params = atom at asks ⊢
  cases asks with
  | equal found | notEqual found => exact two_le_of_comparison? found
  | typeTest _ | constant _ => exact Nat.one_le_two_pow
  | @use word span slot named =>
    have counted : (name word span).uses params = 1 := uses_of_slot? named
    rw [counted]
    simp only [Atom.yield]
    split <;> simp
  | unknown => exact Nat.zero_le _

private theorem length_yields_le (expr : Expr) (states : List Arguments) :
    (states.flatMap fun state => (expr.atom params).yield state).length ≤
      states.length * 2 ^ expr.uses params := by
  induction states with
  | nil => exact Nat.zero_le _
  | cons state states ih =>
    rw [List.flatMap_cons, List.length_append, List.length_cons, Nat.succ_mul, Nat.add_comm]
    exact Nat.add_le_add ih (expr.length_yield_le state)

private theorem length_evalChain_le {stop : Constraint} (apart : stop ≠ stop.negate)
    (operands : List Expr) (each : ∀ operand ∈ operands, ∀ states : List Arguments,
      (operand.eval params limit states).length ≤ states.length * 2 ^ operand.uses params)
    (live : List Arguments) :
    (evalChain params limit stop operands live).length ≤
      live.length * 2 ^ usesAll params operands := by
  induction operands generalizing live with
  | nil => simp [evalChain, Contract.each, usesAll]
  | cons operand operands ih =>
    have first := each operand List.mem_cons_self live
    have rest := ih (fun other member => each other (List.mem_cons_of_mem _ member))
      (Contract.argumentsWith stop.negate (operand.eval params limit live))
    -- What stops here is final and is not doubled any more; what goes on is.
    have whole := doubled_le 0 (usesAll params operands)
      (split_le apart (operand.eval params limit live)) first
    simp only [evalChain, List.length_append, usesAll]
    simp only [Contract.argumentsWith, List.length_map] at whole rest ⊢
    simp only [Nat.zero_add, Nat.pow_zero, Nat.mul_one] at whole
    omega

/-- Every use of a parameter at most doubles the number of contracts. -/
private theorem length_eval_le (expr : Expr) (states : List Arguments) :
    (expr.eval params limit states).length ≤ states.length * 2 ^ expr.uses params := by
  induction expr using byShape generalizing states with
  | chain op stop operands span stops ih =>
    rw [eval_chain stops]
    split
    next => exact length_evalChain_le (BinaryOp.stop_ne_negate stops) operands ih states
    next => exact Nat.zero_le _
  | conditional condition whenTrue whenFalse span conditionIH trueIH falseIH =>
    simp only [eval]
    split
    next =>
      have first := trueIH (Contract.argumentsWith .isTrue (condition.eval params limit states))
      have second := falseIH (Contract.argumentsWith .isFalse (condition.eval params limit states))
      -- The branches share the contracts of the condition between them.
      have whole := doubled_le (whenTrue.uses params) (whenFalse.uses params)
        (split_le (by decide : Constraint.isTrue ≠ .isFalse) (condition.eval params limit states))
        (conditionIH states)
      simp only [List.length_append, uses]
      omega
    next => exact Nat.zero_le _
  | paren inner span ih =>
    simp only [eval]
    split
    next => exact ih states
    next => exact Nat.zero_le _
  | not operand span ih =>
    simp only [eval]
    split
    next =>
      exact Nat.le_trans (length_negated_le _) (ih states)
    next => exact Nat.zero_le _
  | atomic expr isAtomic =>
    rw [eval_atomic isAtomic]
    split
    next => exact expr.length_yields_le states
    next => exact Nat.zero_le _

/-- States that are handed on by an expression leave room for the uses after it. -/
theorem handed_le {maxStates whole : Nat} (limit : Option Nat) (expr : Expr)
    (states : List Arguments) (enough : states.length * 2 ^ whole ≤ maxStates)
    (result : Constraint) (rest : Nat)
    (counted : expr.uses params + rest ≤ whole) :
    (Contract.argumentsWith result (expr.eval params limit states)).length * 2 ^ rest ≤
      maxStates := by
  have kept : (Contract.argumentsWith result (expr.eval params limit states)).length ≤
      states.length * 2 ^ expr.uses params := by
    rw [Contract.argumentsWith, List.length_map]
    exact Nat.le_trans (List.length_filter_le _ _) (expr.length_eval_le states)
  -- What is handed on is no more than what has been yielded.
  calc _ ≤ states.length * 2 ^ expr.uses params * 2 ^ rest := Nat.mul_le_mul_right _ kept
    _ = states.length * 2 ^ (expr.uses params + rest) := by rw [Nat.pow_add, Nat.mul_assoc]
    _ ≤ states.length * 2 ^ whole :=
      Nat.mul_le_mul_left _ (Nat.pow_le_pow_right Nat.two_pos counted)
    _ ≤ maxStates := enough

end Expr

/-- A part that uses no more parameters needs no more room. -/
theorem room_of_le {states part whole maxStates : Nat} (counted : part ≤ whole)
    (enough : states * 2 ^ whole ≤ maxStates) : states * 2 ^ part ≤ maxStates :=
  Nat.le_trans (Nat.mul_le_mul_left _ (Nat.pow_le_pow_right Nat.two_pos counted)) enough

/-- Below the bound an expression is looked at. -/
theorem heeded_of_le {maxStates uses : Nat} {states : List Arguments} {state : Arguments}
    (member : state ∈ states) (enough : states.length * 2 ^ uses ≤ maxStates) :
    Arguments.heeded (some maxStates) states = true := by
  have present := List.isEmpty_eq_false_iff_exists_mem.mpr ⟨state, member⟩
  have fits : states.length ≤ maxStates :=
    Nat.le_trans (Nat.le_mul_of_pos_right _ Nat.one_le_two_pow) enough
  simp only [Arguments.heeded, present, Option.all_some, decide_eq_true fits, Bool.not_false,
    Bool.and_self]

end MethodContracts.Tree
