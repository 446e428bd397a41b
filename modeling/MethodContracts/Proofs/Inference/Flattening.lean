import Mathlib.Data.List.Forall2
import MethodContracts.Method.OfSource
import MethodContracts.Proofs.Inference.Agreement
import MethodContracts.Proofs.Tree.Allocation

/-!
# Flattened chains

It makes no difference for inference whether a chain of one operator is one node
with all its operands or a node with two operands for every operator. A chain of
`&&` or `||` ends early where its first operands do, and a comparison of more than
two operands says as little as one of a comparison.
-/
namespace MethodContracts

namespace Contract

theorem argumentsWith_append (result : Constraint) (first second : List Contract) :
    argumentsWith result (first ++ second) =
      argumentsWith result first ++ argumentsWith result second := by
  simp only [argumentsWith, List.filter_append, List.map_append]

private theorem argumentsWith_each (states : List Arguments) (result : Constraint) :
    argumentsWith result (each states result) = states := by
  simp [argumentsWith, each, List.filter_map, Function.comp_def]

private theorem filter_each {stop result : Constraint} (apart : result ≠ stop)
    (states : List Arguments) : (each states result).filter (·.result == stop) = [] := by
  simp [each, apart]

/-- What ended early is not handed on. -/
private theorem argumentsWith_filter {stop result : Constraint} (apart : stop ≠ result)
    (contracts : List Contract) :
    argumentsWith result (contracts.filter (·.result == stop)) = [] := by
  simp only [argumentsWith, List.filter_filter, List.map_eq_nil_iff, List.filter_eq_nil_iff,
    Bool.and_eq_true, beq_iff_eq, not_and]
  intro contract _ isResult isStop
  exact apart (isStop.symm.trans isResult)

end Contract

namespace Tree

namespace Expr

variable {params : List String} {limit : Option Nat}

/-! ## Chains -/

/-- Operands in two parts: what ends the first part is final, and its other states
go on to the second. -/
private theorem evalChain_append {stop : Constraint} (apart : stop ≠ stop.negate)
    (first second : List Expr) (live : List Arguments) :
    evalChain params limit stop (first ++ second) live =
      (evalChain params limit stop first live).filter (·.result == stop) ++
        evalChain params limit stop second
          (Contract.argumentsWith stop.negate (evalChain params limit stop first live)) := by
  induction first generalizing live with
  | nil =>
    rw [evalChain, Contract.filter_each apart.symm, Contract.argumentsWith_each]
    rfl
  | cons operand operands ih =>
    -- What an operand has stopped stays final, and none of it is handed on.
    simp only [List.cons_append, evalChain, ih, List.filter_append, List.filter_filter,
      Bool.and_self, Contract.argumentsWith_append, Contract.argumentsWith_filter apart,
      List.nil_append, List.append_assoc]

/-- What asks nothing of a state yields nothing. -/
private theorem eval_silent {expr : Expr} (atomic : expr.isAtomic = true)
    (unknown : expr.atom params = .unknown) (states : List Arguments) :
    expr.eval params limit states = [] := by
  rw [eval_atomic atomic, unknown]
  split
  next => exact List.flatMap_eq_nil_iff.mpr fun _ _ => rfl
  next => rfl

private theorem atom_chain_unknown {op : BinaryOp} {operands : List Expr} {span : Span}
    (silent : ∀ left right, operands = [left, right] → left.comparison? params right = none) :
    (chain op operands span).atom params = .unknown := by
  have asks := (chain op operands span).atom_asks params
  generalize (chain op operands span).atom params = atom at asks ⊢
  cases asks with
  | equal found | notEqual found => cases found.symm.trans (silent _ _ rfl)
  | unknown => rfl

/-- The first operands of a chain may as well be a chain themselves. -/
private theorem eval_nested (op : BinaryOp) (operands : List Expr) (several : 2 ≤ operands.length)
    (last : Expr) (innerSpan span : Span) (states : List Arguments) :
    (chain op (operands ++ [last]) span).eval params limit states =
      (chain op [chain op operands innerSpan, last] span).eval params limit states := by
  cases stops : op.stop? with
  | some stop =>
    -- The inner chain is evaluated for the same states as the outer one, so neither is
    -- looked at or both are.
    rw [eval_chain stops, eval_chain stops]
    cases heeded : Arguments.heeded limit states with
    | false => rfl
    | true =>
      have inner : (chain op operands innerSpan).eval params limit states =
          evalChain params limit stop operands states := by
        rw [eval_chain stops, heeded]
        rfl
      simp only [ite_true]
      rw [evalChain_append (BinaryOp.stop_ne_negate stops)]
      simp only [evalChain, inner]
  | none =>
    -- Other operators compare at most, and neither chain compares a name with a literal.
    have atomic (operands : List Expr) : (chain op operands span).isAtomic = true := by
      simp only [isAtomic, stops, Option.isNone_none]
    rw [eval_silent (atomic _), eval_silent (atomic _)]
    · -- The first operand is a chain, neither a parameter nor a literal.
      apply atom_chain_unknown
      intro left right same
      cases same
      simp only [comparison?, slot?, constant?]
      split
      next impossible => cases impossible
      next => rfl
    · -- The flat chain has more than two operands.
      apply atom_chain_unknown
      intro left right same
      have counted := congrArg List.length same
      simp only [List.length_append, List.length_cons, List.length_nil] at counted
      omega

/-! ## Expressions -/

/-- Inference cannot tell the expressions apart. -/
structure Alike (params : List String) (left right : Expr) : Prop where
  eval : ∀ limit states, left.eval params limit states = right.eval params limit states
  slot? : left.slot? params = right.slot? params
  constant? : left.constant? = right.constant?

theorem Alike.refl (expr : Expr) : expr.Alike params expr := ⟨fun _ _ => rfl, rfl, rfl⟩

theorem Alike.trans {left middle right : Expr} (first : left.Alike params middle)
    (second : middle.Alike params right) : left.Alike params right where
  eval limit states := (first.eval limit states).trans (second.eval limit states)
  slot? := first.slot?.trans second.slot?
  constant? := first.constant?.trans second.constant?

/-- Expressions that are not understood are alike. -/
theorem Alike.of_unknown {left right : Expr} (leftAtomic : left.isAtomic = true)
    (rightAtomic : right.isAtomic = true) (leftUnknown : left.atom params = .unknown)
    (rightUnknown : right.atom params = .unknown) (slot? : left.slot? params = right.slot? params)
    (constant? : left.constant? = right.constant?) : left.Alike params right where
  eval limit states := by
    rw [eval_silent leftAtomic leftUnknown, eval_silent rightAtomic rightUnknown]
  slot? := slot?
  constant? := constant?

theorem Alike.paren {left right : Expr} (alike : left.Alike params right) (span : Span) :
    (Expr.paren left span).Alike params (Expr.paren right span) where
  eval limit states := by simp only [Expr.eval, alike.eval]
  slot? := rfl
  constant? := rfl

theorem Alike.unary {left right : Expr} (alike : left.Alike params right) (op : UnaryOp)
    (span : Span) : (Expr.unary op left span).Alike params (Expr.unary op right span) := by
  cases op with
  | not => exact ⟨fun limit states => by simp only [Expr.eval, alike.eval], rfl, rfl⟩
  | _ => exact .of_unknown rfl rfl rfl rfl rfl rfl

theorem Alike.instanceOf {left right : Expr} (alike : left.Alike params right) (type : String)
    (span : Span) :
    (Expr.instanceOf left type span).Alike params (Expr.instanceOf right type span) where
  eval limit states := by simp only [Expr.eval, atom, alike.slot?]
  slot? := rfl
  constant? := rfl

theorem Alike.conditional {condition whenTrue whenFalse condition' whenTrue' whenFalse' : Expr}
    (decides : condition.Alike params condition') (first : whenTrue.Alike params whenTrue')
    (second : whenFalse.Alike params whenFalse') (span : Span) :
    (Expr.conditional condition whenTrue whenFalse span).Alike params
      (Expr.conditional condition' whenTrue' whenFalse' span) where
  eval limit states := by simp only [Expr.eval, decides.eval, first.eval, second.eval]
  slot? := rfl
  constant? := rfl

theorem Alike.chain {first last first' last' : Expr} (one : first.Alike params first')
    (two : last.Alike params last') (op : BinaryOp) (span : Span) :
    (Expr.chain op [first, last] span).Alike params (Expr.chain op [first', last'] span) := by
  refine ⟨fun limit states => ?_, rfl, rfl⟩
  cases stops : op.stop? with
  | some stop => simp only [eval_chain stops, evalChain, one.eval, two.eval]
  | none =>
    -- What a comparison asks depends on which operand is a parameter and which a literal.
    have same : (Expr.chain op [first, last] span).atom params =
        (Expr.chain op [first', last'] span).atom params := by
      cases op <;> simp only [atom, comparison?, one.slot?, one.constant?, two.slot?,
        two.constant?]
    have atomic (operands : List Expr) : (Expr.chain op operands span).isAtomic = true := by
      simp only [isAtomic, stops, Option.isNone_none]
    rw [eval_atomic (atomic _), eval_atomic (atomic _), same]

/-- A left operand may contribute its own operands to the chain. -/
theorem Alike.flatten {first : Expr}
    (several : ∀ op operands span, first = Expr.chain op operands span → 2 ≤ operands.length)
    (last : Expr) (op : BinaryOp) (span : Span) :
    (Expr.chain op (first.operandsFor op ++ [last]) span).Alike params
      (Expr.chain op [first, last] span) := by
  cases first with
  | chain other operands innerSpan =>
    -- A chain of the same operator is continued, any other is an operand like the rest.
    by_cases same : other = op
    · subst same
      simp only [operandsFor, ite_true]
      exact ⟨fun _ states => eval_nested other operands (several other operands innerSpan rfl) last
        innerSpan span states, rfl, rfl⟩
    · simp only [operandsFor, same, ite_false]
      exact .refl _
  | _ => exact .refl _

/-- The left operand as the only one it contributes. -/
def separate (_ : BinaryOp) (left : Expr) : List Expr := [left]

/-- Every chain that comes from a source has several operands. -/
private theorem ofSource_several (source : Source.Expr) (op : BinaryOp) (operands : List Expr)
    (span : Span) (same : ofSource source = chain op operands span) : 2 ≤ operands.length := by
  cases source with
  | binary outer first second outerSpan =>
    rw [ofSource, ofSourceWith] at same
    cases same
    rw [List.length_append, List.length_singleton]
    -- One operand is on the right, so one on the left is enough.
    apply Nat.succ_le_succ
    have inner := ofSource_several first
    rw [ofSource] at inner
    unfold operandsFor
    split
    next other operands span flat =>
      have enough := inner other operands span flat
      split
      next => omega
      next => exact Nat.le_refl 1
    next => exact Nat.le_refl 1
  | bool value span => cases value <;> cases same
  | _ => cases same

/-- Whether chains are flattened makes no difference for an expression. -/
theorem ofSource_alike (source : Source.Expr) :
    (ofSource source).Alike params (ofSourceWith separate source) := by
  cases source with
  | binary op first second span =>
    have one := ofSource_alike first
    have two := ofSource_alike second
    -- First the chain is cut into two, then its parts are exchanged.
    exact (Alike.flatten (ofSource_several first) _ _ span).trans (one.chain two _ span)
  | unary op operand span => exact (ofSource_alike operand).unary _ span
  | paren inner span => exact (ofSource_alike inner).paren span
  | instanceOf operand type span => exact (ofSource_alike operand).instanceOf _ span
  | conditional condition whenTrue whenFalse span =>
    have decides := ofSource_alike condition
    exact decides.conditional (ofSource_alike whenTrue) (ofSource_alike whenFalse) span
  | name | number | string | char | null | this | lambda | missing => exact .refl _
  | bool value span => cases value <;> exact .refl _
  -- Nothing is inferred from these, whatever their parts are.
  | call | field | index | new | assign | cast | methodRef =>
    exact .of_unknown rfl rfl rfl rfl rfl rfl

end Expr

/-! ## Statements -/

namespace Stmt

variable {params : List String}

/-- Inference cannot tell the statements apart. -/
structure Alike (params : List String) (left right : Stmt) : Prop where
  eval : ∀ limit states, left.eval params limit states = right.eval params limit states
  alwaysReturns : left.alwaysReturns = right.alwaysReturns

private theorem anyReturns_alike {left right : List Stmt}
    (alike : List.Forall₂ (Alike params) left right) : anyReturns left = anyReturns right := by
  induction alike with
  | nil => rfl
  | cons first _ ih => simp only [anyReturns, first.alwaysReturns, ih]

theorem evalAll_alike {left right : List Stmt} (alike : List.Forall₂ (Alike params) left right)
    (limit : Option Nat) (states : List Arguments) :
    evalAll params limit left states = evalAll params limit right states := by
  induction alike generalizing states with
  | nil => rfl
  | cons first _ ih => simp only [evalAll, first.eval, ih]

/-- A block is looked into if it holds one statement. -/
theorem Alike.block {left right : List Stmt} (alike : List.Forall₂ (Alike params) left right)
    (span : Span) : (Stmt.block left span).Alike params (Stmt.block right span) where
  eval limit states := by
    cases alike with
    | nil => rfl
    | cons first rest =>
      cases rest with
      | nil => simp only [Stmt.eval, first.eval]
      | cons => rfl
  alwaysReturns := by simp only [Stmt.alwaysReturns, anyReturns_alike alike]

theorem Alike.ifElse {condition condition' : Expr} {whenTrue whenTrue' whenFalse whenFalse' : Stmt}
    (decides : condition.Alike params condition') (first : whenTrue.Alike params whenTrue')
    (second : whenFalse.Alike params whenFalse') (span : Span) :
    (Stmt.ifElse condition whenTrue (some whenFalse) span).Alike params
      (Stmt.ifElse condition' whenTrue' (some whenFalse') span) where
  eval limit states := by simp only [Stmt.eval, decides.eval, first.eval, second.eval]
  alwaysReturns := by simp only [Stmt.alwaysReturns, first.alwaysReturns, second.alwaysReturns]

theorem Alike.guard {condition condition' : Expr} {whenTrue whenTrue' : Stmt}
    (decides : condition.Alike params condition') (first : whenTrue.Alike params whenTrue')
    (span : Span) :
    (Stmt.ifElse condition whenTrue none span).Alike params
      (Stmt.ifElse condition' whenTrue' none span) where
  eval limit states := by
    simp only [Stmt.eval, decides.eval, first.eval, first.alwaysReturns]
  alwaysReturns := rfl

theorem Alike.returns {value value' : Expr} (alike : value.Alike params value') (span : Span) :
    (Stmt.returns (some value) span).Alike params (Stmt.returns (some value') span) where
  eval limit states := by simp only [Stmt.eval, alike.eval]
  alwaysReturns := rfl

theorem Alike.assert {condition condition' : Expr} (alike : condition.Alike params condition')
    (message message' : Option Expr) (span : Span) :
    (Stmt.assert condition message span).Alike params (Stmt.assert condition' message' span) where
  eval limit states := by simp only [Stmt.eval, alike.eval]
  alwaysReturns := rfl

mutual

/-- Whether chains are flattened makes no difference for a statement. -/
theorem ofSource_alike (source : Source.Stmt) :
    (ofSource source).Alike params (ofSourceWith Expr.separate source) := by
  cases source with
  | block statements span => exact .block (ofSourceList_alike statements) span
  | ifElse condition whenTrue whenFalse span =>
    have first := ofSource_alike whenTrue
    cases whenFalse with
    | none => exact .guard (Expr.ofSource_alike condition) first span
    | some whenFalse =>
      exact .ifElse (Expr.ofSource_alike condition) first (ofSource_alike whenFalse) span
  | returns value span =>
    cases value with
    | none => exact ⟨fun _ _ => rfl, rfl⟩
    | some value => exact .returns (Expr.ofSource_alike value) span
  | assert condition message span => exact .assert (Expr.ofSource_alike condition) _ _ span
  -- Inference does not look at the expressions of these.
  | throws | expr | «local» | «while» | skipped | empty => exact ⟨fun _ _ => rfl, rfl⟩

theorem ofSourceList_alike (sources : List Source.Stmt) :
    List.Forall₂ (Alike params) (ofSourceWithList Expr.operandsFor sources)
      (ofSourceWithList Expr.separate sources) := by
  cases sources with
  | nil => exact .nil
  | cons source sources => exact .cons (ofSource_alike source) (ofSourceList_alike sources)

end

end Stmt

end Tree

/-! ## Methods -/

/-- The body that a source block stands for if every operator has two operands. -/
def Body.ofSourceSeparately (block : Source.Block) : Body :=
  (Tree.Stmt.ofSourceWith Tree.Expr.separate block.toStmt).toBody

/-- The contracts inferred from a body that was made of a tree. -/
theorem Method.inferContracts_toBody (method : Method) (tree : Tree.Stmt) (maxStates : Nat) :
    { method with body := some tree.toBody }.inferContracts maxStates =
      .ok (Tree.Stmt.evalAll (method.params.map (·.name)) (some maxStates) tree.statements
        [Arguments.unknown method.params.length]) := by
  obtain ⟨valid, same⟩ := tree.toBody_valid
  rw [inferContracts_eq _ tree.toBody rfl valid, same]

/-- Flattening chains preserves inference: the same contracts in the same order
are inferred from the body of a source block as from the body in which every
operator has a node of its own. -/
theorem Method.inferContracts_flatten (method : Method) (block : Source.Block) (maxStates : Nat) :
    ∃ contracts,
      { method with body := some (Body.ofSource block) }.inferContracts maxStates = .ok contracts ∧
      { method with body := some (Body.ofSourceSeparately block) }.inferContracts maxStates =
        .ok contracts := by
  have flat := method.inferContracts_toBody (Tree.Stmt.ofSource block.toStmt) maxStates
  have separate := method.inferContracts_toBody
    (Tree.Stmt.ofSourceWith Tree.Expr.separate block.toStmt) maxStates
  refine ⟨_, flat, separate.trans ?_⟩
  have alike : List.Forall₂ (Tree.Stmt.Alike (method.params.map (·.name)))
      (Tree.Stmt.ofSource block.toStmt).statements
      (Tree.Stmt.ofSourceWith Tree.Expr.separate block.toStmt).statements :=
    Tree.Stmt.ofSourceList_alike block.statements
  exact congrArg Except.ok (Tree.Stmt.evalAll_alike alike _ _).symm

end MethodContracts
