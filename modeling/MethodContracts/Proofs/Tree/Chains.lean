import MethodContracts.Proofs.Source.Chains
import MethodContracts.Proofs.Tree.Source

/-!
# Chains are flat

Lowering continues a chain along its left spine and ends it at every other node. Where all
operators of the source group to the left, no operand of a chain is a chain of its operator;
and what holds of all expressions of a tree holds at all places of the body made of it. So the
bodies of parsed texts have flat chains only.
-/
namespace MethodContracts

namespace Tree

/-- The expression and all expressions in it have the property. -/
inductive Expr.Every (holds : Expr → Prop) : Expr → Prop where
  | intro {expr : Expr} (self : holds expr)
    (children : ∀ child ∈ expr.children, Every holds child) : Every holds expr

/-- The expressions directly in a statement, in order. -/
def Stmt.exprs : Stmt → List Expr
  | .ifElse value _ _ _ | .while value _ _ | .throws value _ | .expr value _ => [value]
  | .returns value _ | .local _ value _ => value.toList
  | .assert condition message _ => condition :: message.toList
  | .block _ _ | .skipped _ _ | .empty _ => []

/-- All expressions in the statement have the property. -/
inductive Stmt.Every (holds : Expr → Prop) : Stmt → Prop where
  | intro {stmt : Stmt} (exprs : ∀ expr ∈ stmt.exprs, expr.Every holds)
    (children : ∀ child ∈ stmt.children, Every holds child) : Every holds stmt

/-- The operands of a chain are at least two, and none is a chain of its operator. -/
def Expr.Flat : Expr → Prop
  | .chain op operands _ =>
    2 ≤ operands.length ∧ ∀ operand ∈ operands, ∀ inner span, operand ≠ .chain op inner span
  | _ => True

end Tree

/-- Every place reads as an expression with the property. -/
def Arenas.Each (holds : Tree.Expr → Prop) (arenas : Arenas) : Prop :=
  ∀ id : ExprId, id.index < arenas.exprs.size → holds (Tree.Expr.read arenas.exprs id)

namespace Body

/-- Each chain has at least two operands, and none of them is a chain of its operator. -/
def FlatChains (body : Body) : Prop :=
  ∀ id op operands span, body.expr? id = some (.chain op operands span) →
    2 ≤ operands.length ∧
      ∀ operand ∈ operands, ∀ inner other, body.expr? operand ≠ some (.chain op inner other)

/-- A node reads as a chain only if it is one. -/
private theorem flatChains_of_each {body : Body} (valid : body.Valid)
    (each : ∀ id : ExprId, id.index < body.exprs.size → (body.exprTree id).Flat) :
    body.FlatChains := by
  intro id op operands span found
  have flat := each id (body.lt_of_expr? id _ found)
  rw [body.exprTree_eq valid id _ found, Expr.toTree, Tree.Expr.Flat, List.length_map] at flat
  refine ⟨flat.1, fun operand member inner other isChain => ?_⟩
  refine flat.2 _ (List.mem_map_of_mem member) (inner.map body.exprTree) other ?_
  rw [body.exprTree_eq valid operand _ isChain, Expr.toTree]

end Body

namespace Tree

open Builder

variable {holds : Expr → Prop}

/-! ## Allocation -/

namespace Expr

/-- An expression is added after all expressions below it. -/
private theorem allocate_children (tree : Expr) (before : Arenas) :
    ∃ expr, tree.allocate before = addExpr expr (allocateList tree.children before).2 := by
  cases tree <;> exact ⟨_, rfl⟩

private theorem allocateList_each (trees : List Expr)
    (keeps : ∀ tree ∈ trees, ∀ before : Arenas, before.Sound → before.Each holds →
      (tree.allocate before).2.Each holds)
    (before : Arenas) (sound : before.Sound) (each : before.Each holds) :
    (allocateList trees before).2.Each holds := by
  induction trees generalizing before with
  | nil => exact each
  | cons tree trees ih =>
    exact ih (fun other member => keeps other (List.mem_cons_of_mem _ member))
      (tree.allocate before).2 (tree.allocate_yields before sound).sound
      (keeps tree List.mem_cons_self before sound each)

/-- What holds of all expressions of a tree holds at all places that are added for it. -/
theorem Every.allocate {tree : Expr} (every : tree.Every holds) (before : Arenas)
    (sound : before.Sound) (each : before.Each holds) : (tree.allocate before).2.Each holds := by
  induction every generalizing before with
  | @intro tree self _ ih =>
    obtain ⟨expr, added⟩ := tree.allocate_children before
    -- The places below the tree are added first, and each read the same afterwards.
    have below := allocateList_yields tree.children (fun child _ => child.allocate_yields) before
      sound
    have whole := (tree.allocate_yields before sound).has
    rw [added] at whole ⊢
    intro id inside
    by_cases old : id.index < (allocateList tree.children before).2.exprs.size
    · rw [Arenas.read_of_extends below.sound (addExpr_extends expr _) id old]
      exact allocateList_each tree.children ih before sound each id old
    · -- The one place that is new reads as the tree itself.
      have last : id = (addExpr expr (allocateList tree.children before).2).1 := by
        simp only [addExpr, Array.size_push] at inside ⊢
        obtain ⟨index⟩ := id
        exact congrArg ExprId.mk (by simp only at inside old; omega)
      rw [last, whole.read]
      exact self

end Expr

namespace Stmt

/-- A statement is added after all expressions and statements below it. -/
private theorem allocate_children (tree : Stmt) (before : Arenas) :
    ∃ stmt, tree.allocate before =
      addStmt stmt (allocateList tree.children (Expr.allocateList tree.exprs before).2).2 := by
  cases tree with
  | ifElse condition whenTrue whenFalse => cases whenFalse <;> exact ⟨_, rfl⟩
  | returns value => cases value <;> exact ⟨_, rfl⟩
  | «local» name init => cases init <;> exact ⟨_, rfl⟩
  | assert condition message => cases message <;> exact ⟨_, rfl⟩
  | _ => exact ⟨_, rfl⟩

private theorem allocateList_each (trees : List Stmt)
    (keeps : ∀ tree ∈ trees, ∀ before : Arenas, before.Sound → before.Each holds →
      (tree.allocate before).2.Each holds)
    (before : Arenas) (sound : before.Sound) (each : before.Each holds) :
    (allocateList trees before).2.Each holds := by
  induction trees generalizing before with
  | nil => exact each
  | cons tree trees ih =>
    exact ih (fun other member => keeps other (List.mem_cons_of_mem _ member))
      (tree.allocate before).2 (tree.allocate_yields before sound).sound
      (keeps tree List.mem_cons_self before sound each)

theorem Every.allocate {tree : Stmt} (every : tree.Every holds) (before : Arenas)
    (sound : before.Sound) (each : before.Each holds) : (tree.allocate before).2.Each holds := by
  induction every generalizing before with
  | @intro tree exprs _ ih =>
    obtain ⟨stmt, added⟩ := tree.allocate_children before
    have below := Expr.allocateList_yields tree.exprs (fun expr _ => expr.allocate_yields) before
      sound
    have inner := Expr.allocateList_each tree.exprs
      (fun expr member => (exprs expr member).allocate) before sound each
    rw [added]
    exact allocateList_each tree.children ih _ below.sound inner

/-- What holds of all expressions of a tree holds at all places of its body. -/
theorem Every.toBody {tree : Stmt} (every : tree.Every holds) (id : ExprId)
    (inside : id.index < tree.toBody.exprs.size) : holds (tree.toBody.exprTree id) :=
  every.allocate .empty Arenas.empty_sound (fun _ none => absurd none (Nat.not_lt_zero _)) id inside

end Stmt

/-! ## Lowering -/

namespace Expr

private theorem ofSourceWithList_eq (left : BinaryOp → Expr → List Expr)
    (sources : List Source.Expr) :
    ofSourceWithList left sources = sources.map (ofSourceWith left) := by
  induction sources with
  | nil => rfl
  | cons source sources ih => rw [ofSourceWithList, ih, List.map_cons]

/-- Only an operator becomes a chain. -/
private theorem ofSource_eq_chain {source : Source.Expr} {op : BinaryOp} {operands : List Expr}
    {span : Span} (isChain : ofSource source = .chain op operands span) :
    ∃ written first second, source = .binary written first second span ∧ binaryOp written = op := by
  cases source with
  | binary written first second span =>
    injection isChain with same _ spans
    exact ⟨written, first, second, by rw [spans], same⟩
  | bool value => cases value <;> cases isChain
  | _ => cases isChain

/-- What an expression contributes to a chain of the operator: something, and no other chain of
the operator. -/
theorem Every.operandsFor {tree : Expr} (every : tree.Every Flat) (op : BinaryOp) :
    tree.operandsFor op ≠ [] ∧ ∀ operand ∈ tree.operandsFor op,
      operand.Every Flat ∧ ∀ inner span, operand ≠ .chain op inner span := by
  have alone (noChain : ∀ inner span, tree ≠ .chain op inner span) :
      [tree] ≠ [] ∧ ∀ operand ∈ [tree],
        operand.Every Flat ∧ ∀ inner span, operand ≠ .chain op inner span :=
    ⟨List.cons_ne_nil _ _, List.forall_mem_singleton.mpr ⟨every, noChain⟩⟩
  cases tree with
  | chain other operands span =>
    obtain ⟨⟨several, apart⟩, each⟩ := every
    rw [Expr.operandsFor]
    split
    next same =>
      -- A chain of the same operator hands on its operands, which are flat already.
      subst same
      refine ⟨?_, fun operand member => ⟨each operand member, apart operand member⟩⟩
      rintro rfl
      exact absurd several (Nat.not_succ_le_zero _)
    next different =>
      refine alone fun inner other same => ?_
      injection same with sameOp
      exact different sameOp
  | _ => exact alone fun _ _ same => by cases same

/-- Operators that group to the left become flat chains. -/
private theorem ofSource_flat {source : Source.Expr} (grouped : source.Grouped) :
    (ofSource source).Every Flat := by
  induction grouped with
  | @intro source groups _ ih =>
    have lowered : ∀ child ∈ source.parts.map ofSource, child.Every Flat :=
      List.forall_mem_map.mpr ih
    cases source with
    | binary op first second span =>
      obtain ⟨nonempty, operands⟩ := (ih first List.mem_cons_self).operandsFor (binaryOp op)
      have last := ih second (List.mem_cons_of_mem _ List.mem_cons_self)
      -- A right operand that is such a chain would come from the same operator.
      have apart : ∀ inner other, ofSource second ≠ .chain (binaryOp op) inner other := by
        intro inner other isChain
        obtain ⟨written, left, right, rfl, same⟩ := ofSource_eq_chain isChain
        exact groups left right other (by rw [binaryOp_inj.mp same])
      refine .intro ⟨?_, ?_⟩ ?_
      · have counted := List.length_pos_iff.mpr nonempty
        rw [List.length_append, List.length_singleton]
        exact Nat.succ_le_succ counted
      · exact List.forall_mem_append.mpr
          ⟨fun operand member => (operands operand member).2, List.forall_mem_singleton.mpr apart⟩
      · exact List.forall_mem_append.mpr
          ⟨fun operand member => (operands operand member).1, List.forall_mem_singleton.mpr last⟩
    | bool value => cases value <;> exact .intro trivial lowered
    | call | new =>
      refine .intro trivial ?_
      rw [ofSource, ofSourceWith, children, ofSourceWithList_eq]
      exact lowered
    | _ => exact .intro trivial lowered

end Expr

namespace Stmt

private theorem ofSourceWithList_eq (left : BinaryOp → Expr → List Expr)
    (sources : List Source.Stmt) :
    ofSourceWithList left sources = sources.map (ofSourceWith left) := by
  induction sources with
  | nil => rfl
  | cons source sources ih => rw [ofSourceWithList, ih, List.map_cons]

private theorem exprs_ofSource (source : Source.Stmt) :
    (ofSource source).exprs = source.exprs.map Expr.ofSource := by
  cases source with
  | «local» type name nameSpan init => cases init <;> rfl
  | returns value => cases value <;> rfl
  | assert condition message => cases message <;> rfl
  | _ => rfl

private theorem children_ofSource (source : Source.Stmt) :
    (ofSource source).children = source.parts.map ofSource := by
  cases source with
  | ifElse condition whenTrue whenFalse => cases whenFalse <;> rfl
  | block statements span => exact ofSourceWithList_eq _ statements
  | _ => rfl

private theorem ofSource_flat {source : Source.Stmt} (grouped : source.Grouped) :
    (ofSource source).Every Expr.Flat := by
  induction grouped with
  | @intro source exprs _ ih =>
    refine .intro ?_ ?_
    · rw [exprs_ofSource]
      exact List.forall_mem_map.mpr fun expr member => Expr.ofSource_flat (exprs expr member)
    · rw [children_ofSource]
      exact List.forall_mem_map.mpr ih

end Stmt
end Tree

theorem Body.ofSource_flatChains {block : Source.Block} (grouped : block.Grouped) :
    (ofSource block).FlatChains :=
  flatChains_of_each (Tree.Stmt.ofSource block.toStmt).toBody_valid.1
    (Tree.Stmt.ofSource_flat grouped).toBody

open Source

/-- Whatever the text, the bodies made of what is parsed have flat chains: those of all methods
of a unit and of all its other blocks, that of a single method, and that of a block. -/
theorem parse_chains_flat (text : String) :
    (∀ member, (parse text).value.HasMember member → ∀ block ∈ member.block?,
      (Body.ofSource block).FlatChains) ∧
    (∀ method ∈ Method.ofUnit (parse text).value, ∀ body ∈ method.body, body.FlatChains) ∧
    (∀ decl ∈ (parseMethod text).value, ∀ owner, ∀ body ∈ (Method.ofSource decl owner).body,
      body.FlatChains) ∧
    ∀ offset, (Body.ofSource (parseBlock text offset).value).FlatChains := by
  -- Every body is made from a block that has been read, and what is read is grouped.
  refine ⟨?_, ?_, ?_, ?_⟩
  · intro member has block body
    exact Body.ofSource_flatChains (parse_grouped text has body)
  · intro method found body lowered
    obtain ⟨decl, owner, has, rfl⟩ := Method.hasMember_of_mem_ofUnit found
    obtain ⟨block, isBody, rfl⟩ := Option.map_eq_some_iff.mp lowered
    exact Body.ofSource_flatChains (parse_grouped text has isBody)
  · intro decl read owner body lowered
    obtain ⟨block, isBody, rfl⟩ := Option.map_eq_some_iff.mp lowered
    exact Body.ofSource_flatChains (parseMethod_grouped text read isBody)
  · intro offset
    exact Body.ofSource_flatChains (parseBlock_grouped text offset)

/-- A unit that breaks off in a chain with a group and a type test in it. -/
def brokenOff : String :=
  "class A \x7b A() \x7b b = c + d + (e + f); \x7d boolean g() \x7b " ++
    "return b && (c && d) && e instanceof F && g"

theorem parse_chains_flat_brokenOff :
    (parse brokenOff).errors ≠ [] ∧
      (∃ decl, (parse brokenOff).value.HasMember (.constructor decl) ∧
        (Body.ofSource decl.body).FlatChains) ∧
      (∃ method ∈ Method.ofUnit (parse brokenOff).value, ∃ body ∈ method.body,
        4 ∈ body.exprs.toList.map (·.children.length) ∧ body.FlatChains) ∧
      (∃ decl ∈ (parseMethod "int a() \x7b return b - - c - (d - e) - ").value,
        ∃ body ∈ (Method.ofSource decl none).body, body.FlatChains) ∧
      (Body.ofSource (parseBlock "\x7b a == b instanceof C == ; d" 7).value).FlatChains := by
  obtain ⟨blocks, methods, _, _⟩ := parse_chains_flat brokenOff
  have torn := (parse_chains_flat "\x7b a == b instanceof C == ; d").2.2.2 7
  refine ⟨by decide +kernel, ?_, ?_, ?_, torn⟩
  · have found : (parse brokenOff).value.types.any (fun type => type.members.any fun member =>
        match member with
        | .constructor _ => true
        | _ => false) = true := by decide +kernel
    obtain ⟨type, isType, found⟩ := List.any_eq_true.mp found
    obtain ⟨member, listed, isConstructor⟩ := List.any_eq_true.mp found
    cases member with
    | constructor decl =>
      have isMember : (parse brokenOff).value.HasMember (.constructor decl) :=
        ⟨type, isType, _, listed, .self _⟩
      exact ⟨decl, isMember, blocks _ isMember _ rfl⟩
    | _ => cases isConstructor
  · have found : ∃ method ∈ Method.ofUnit (parse brokenOff).value, ∃ body ∈ method.body,
        4 ∈ body.exprs.toList.map (·.children.length) := by decide +kernel
    obtain ⟨method, isMethod, body, isBody, long⟩ := found
    exact ⟨method, isMethod, body, isBody, long, methods method isMethod body isBody⟩
  · have read : (parseMethod "int a() \x7b return b - - c - (d - e) - ").value.any
        (·.body.isSome) = true := by decide +kernel
    obtain ⟨decl, isDecl, present⟩ := Option.any_eq_true _ _ |>.mp read
    obtain ⟨block, isBody⟩ := Option.isSome_iff_exists.mp present
    have lowered : Body.ofSource block ∈ (Method.ofSource decl none).body :=
      Option.map_eq_some_iff.mpr ⟨block, isBody, rfl⟩
    exact ⟨decl, isDecl, _, lowered,
      (parse_chains_flat _).2.2.1 decl isDecl none _ lowered⟩

end MethodContracts
