import MethodContracts.Proofs.Tree.Ownership
import MethodContracts.Tree.OfSource

/-!
# How many nodes a source needs

A body has at most as many nodes as the source it is made from, so the places of a body
fit any index type that can count the source.
-/
namespace MethodContracts

namespace Source

mutual

/-- The number of nodes of an expression. -/
def Expr.nodes : Expr → Nat
  | .name _ _ | .number _ _ | .string _ _ | .char _ _ | .bool _ _ | .null _ | .this _
  | .lambda _ | .missing _ => 1
  | .call callee arguments _ => callee.nodes + Expr.allNodes arguments + 1
  | .new _ arguments _ => Expr.allNodes arguments + 1
  | .field inner _ _ _ | .unary _ inner _ | .instanceOf inner _ _ | .paren inner _
  | .cast _ inner _ | .methodRef inner _ _ => inner.nodes + 1
  | .index left right _ | .binary _ left right _ | .assign left right _ =>
    left.nodes + right.nodes + 1
  | .conditional condition whenTrue whenFalse _ =>
    condition.nodes + whenTrue.nodes + whenFalse.nodes + 1

def Expr.allNodes : List Expr → Nat
  | [] => 0
  | expr :: exprs => expr.nodes + Expr.allNodes exprs

end

/-- The number of nodes of an expression that may be absent. -/
def Expr.optionNodes : Option Expr → Nat
  | none => 0
  | some expr => expr.nodes

mutual

/-- The number of nodes of a statement, its expressions included. -/
def Stmt.nodes : Stmt → Nat
  | .local _ _ _ init _ => Expr.optionNodes init + 1
  | .expr value _ | .throws value _ => value.nodes + 1
  | .returns value _ => Expr.optionNodes value + 1
  | .ifElse condition whenTrue whenFalse _ =>
    condition.nodes + whenTrue.nodes + Stmt.optionNodes whenFalse + 1
  | .assert condition message _ => condition.nodes + Expr.optionNodes message + 1
  | .while condition body _ => condition.nodes + body.nodes + 1
  | .block statements _ => Stmt.allNodes statements + 1
  | .skipped _ _ | .empty _ => 1

def Stmt.optionNodes : Option Stmt → Nat
  | none => 0
  | some stmt => stmt.nodes

def Stmt.allNodes : List Stmt → Nat
  | [] => 0
  | stmt :: stmts => stmt.nodes + Stmt.allNodes stmts

end

end Source

/-- All nodes in the arenas. -/
def Arenas.nodes (arenas : Arenas) : Nat := arenas.stmts.size + arenas.exprs.size

namespace Builder

/-- The builder adds at most so many nodes. -/
def Grows {α : Type} (builder : Builder α) (amount : Nat) : Prop :=
  ∀ before : Arenas, (builder before).2.nodes ≤ before.nodes + amount

theorem Grows.pure {α : Type} {value : α} : Grows (Pure.pure value) 0 :=
  fun before => Nat.le_refl before.nodes

theorem Grows.bind {α β : Type} {builder : Builder α} {next : α → Builder β} {first rest : Nat}
    (start : builder.Grows first) (after : ∀ value, (next value).Grows rest) :
    Grows (builder >>= next) (first + rest) := by
  intro before
  have grown := start before
  have further := after (builder before).1 (builder before).2
  calc ((builder >>= next) before).2.nodes
      ≤ (builder before).2.nodes + rest := further
    _ ≤ before.nodes + (first + rest) := by omega

theorem Grows.weaken {α : Type} {builder : Builder α} {amount more : Nat}
    (grows : builder.Grows amount) (le : amount ≤ more) : builder.Grows more :=
  fun before => Nat.le_trans (grows before) (Nat.add_le_add_left le _)

private theorem addExpr_grows (expr : Expr) : (addExpr expr).Grows 1 := by
  intro before
  simp only [addExpr, Arenas.nodes, Array.size_push]
  omega

private theorem addStmt_grows (stmt : Stmt) : (addStmt stmt).Grows 1 := by
  intro before
  simp only [addStmt, Arenas.nodes, Array.size_push]
  omega

end Builder

namespace Tree

open Builder

namespace Expr

theorem allocateList_append (first second : List Expr) (before : Arenas) :
    (allocateList (first ++ second) before).2 =
      (allocateList second (allocateList first before).2).2 := by
  induction first generalizing before with
  | nil => rfl
  | cons expr exprs ih => exact ih (expr.allocate before).2

private theorem allocateList_append_grows {first second : List Expr} {amount more : Nat}
    (start : (allocateList first).Grows amount) (rest : (allocateList second).Grows more) :
    (allocateList (first ++ second)).Grows (amount + more) := by
  intro before
  have grown := start before
  have further := rest (allocateList first before).2
  rw [allocateList_append]
  omega

private theorem allocateList_singleton_grows {tree : Expr} {amount : Nat}
    (whole : tree.allocate.Grows amount) : (allocateList [tree]).Grows amount :=
  fun before => whole before

/-- Adding the expression takes at most so many nodes, and so does adding what it
contributes to a chain. -/
structure Fits (tree : Expr) (amount : Nat) : Prop where
  whole : tree.allocate.Grows amount
  operands : ∀ op, (allocateList (tree.operandsFor op)).Grows amount

theorem Fits.alone {tree : Expr} {amount : Nat} (whole : tree.allocate.Grows amount)
    (kept : ∀ op, tree.operandsFor op = [tree]) : tree.Fits amount where
  whole := whole
  operands op := by
    rw [kept]
    exact allocateList_singleton_grows whole

theorem Fits.chain {op : BinaryOp} {first second : Expr} {span : Span} {amount more : Nat}
    (left : first.Fits amount) (right : second.Fits more) :
    (chain op (first.operandsFor op ++ [second]) span).Fits (amount + more + 1) := by
  have operands := allocateList_append_grows (left.operands op)
    (allocateList_singleton_grows right.whole)
  have whole : (allocate (.chain op (first.operandsFor op ++ [second]) span)).Grows
      (amount + more + 1) := operands.bind fun _ => addExpr_grows _
  refine ⟨whole, fun outer => ?_⟩
  -- Its operands alone are one node less than the chain.
  by_cases same : op = outer
  · simp only [operandsFor, same, ite_true]
    subst same
    exact operands.weaken (Nat.le_succ _)
  · simp only [operandsFor, same, ite_false]
    exact allocateList_singleton_grows whole

mutual

theorem ofSource_fits (source : Source.Expr) : (ofSource source).Fits source.nodes := by
  cases source with
  | binary op first second span => exact .chain (ofSource_fits first) (ofSource_fits second)
  | bool value span => cases value <;> exact .alone (addExpr_grows _) (fun _ => rfl)
  | name | number | string | char | null | this | lambda | missing =>
    exact .alone (addExpr_grows _) (fun _ => rfl)
  | field inner | unary _ inner | instanceOf inner | paren inner | cast _ inner
  | methodRef inner =>
    exact .alone ((ofSource_fits inner).whole.bind fun _ => addExpr_grows _) (fun _ => rfl)
  | new type arguments span =>
    exact .alone ((ofSourceList_fits arguments).bind fun _ => addExpr_grows _) (fun _ => rfl)
  | call callee arguments span =>
    refine .alone (.weaken (.bind (ofSource_fits callee).whole fun _ =>
      .bind (ofSourceList_fits arguments) fun _ => addExpr_grows _) ?_) (fun _ => rfl)
    simp only [Source.Expr.nodes]
    omega
  | index left right | assign left right =>
    refine .alone (.weaken (.bind (ofSource_fits left).whole fun _ =>
      .bind (ofSource_fits right).whole fun _ => addExpr_grows _) ?_) (fun _ => rfl)
    simp only [Source.Expr.nodes]
    omega
  | conditional condition whenTrue whenFalse span =>
    refine .alone (.weaken (.bind (ofSource_fits condition).whole fun _ =>
      .bind (ofSource_fits whenTrue).whole fun _ =>
      .bind (ofSource_fits whenFalse).whole fun _ => addExpr_grows _) ?_) (fun _ => rfl)
    simp only [Source.Expr.nodes]
    omega

theorem ofSourceList_fits (sources : List Source.Expr) :
    (allocateList (ofSourceWithList operandsFor sources)).Grows (Source.Expr.allNodes sources) := by
  cases sources with
  | nil => exact .pure
  | cons source sources =>
    exact (ofSource_fits source).whole.bind fun _ => (ofSourceList_fits sources).bind fun _ => .pure

end

theorem ofSourceOption_grows (source : Option Source.Expr) :
    (allocateOption (source.map (ofSourceWith operandsFor))).Grows
      (Source.Expr.optionNodes source) := by
  cases source with
  | none => exact .pure
  | some source => exact (ofSource_fits source).whole.bind fun _ => .pure

end Expr

namespace Stmt

mutual

theorem ofSource_grows (source : Source.Stmt) : (ofSource source).allocate.Grows source.nodes := by
  cases source with
  | skipped | empty => exact addStmt_grows _
  | expr value | throws value =>
    exact (Expr.ofSource_fits value).whole.bind fun _ => addStmt_grows _
  | «local» _ _ _ value | returns value =>
    exact (Expr.ofSourceOption_grows value).bind fun _ => addStmt_grows _
  | block statements span =>
    exact (ofSourceList_grows statements).bind fun _ => addStmt_grows _
  | assert condition message span =>
    refine .weaken (.bind (Expr.ofSource_fits condition).whole fun _ =>
      .bind (Expr.ofSourceOption_grows message) fun _ => addStmt_grows _) ?_
    simp only [Source.Stmt.nodes]
    omega
  | «while» condition body span =>
    refine .weaken (.bind (Expr.ofSource_fits condition).whole fun _ =>
      .bind (ofSource_grows body) fun _ => addStmt_grows _) ?_
    simp only [Source.Stmt.nodes]
    omega
  | ifElse condition whenTrue whenFalse span =>
    refine .weaken (.bind (Expr.ofSource_fits condition).whole fun _ =>
      .bind (ofSource_grows whenTrue) fun _ =>
      .bind (ofSourceOption_grows whenFalse) fun _ => addStmt_grows _) ?_
    simp only [Source.Stmt.nodes]
    omega

theorem ofSourceOption_grows (source : Option Source.Stmt) :
    (allocateOption (ofSourceWithOption Expr.operandsFor source)).Grows
      (Source.Stmt.optionNodes source) := by
  cases source with
  | none => exact .pure
  | some source => exact (ofSource_grows source).bind fun _ => .pure

theorem ofSourceList_grows (sources : List Source.Stmt) :
    (allocateList (ofSourceWithList Expr.operandsFor sources)).Grows
      (Source.Stmt.allNodes sources) := by
  cases sources with
  | nil => exact .pure
  | cons source sources =>
    exact (ofSource_grows source).bind fun _ => (ofSourceList_grows sources).bind fun _ => .pure

end

end Stmt
end Tree
end MethodContracts
