import MethodContracts.Proofs.Tree.Children
import MethodContracts.Tree.Allocate

/-!
# Who refers to a node

Allocation hands every place to one parent. While a tree is being added, the places
whose parent is not there yet are kept in a list; each place is either in that list or
referred to by a node, and never twice.
-/
namespace MethodContracts

namespace Arenas

/-- All references to expressions. -/
def exprRefs (arenas : Arenas) : List ExprId :=
  arenas.stmts.toList.flatMap Stmt.childExprs ++ arenas.exprs.toList.flatMap Expr.children

/-- All references to statements. -/
def stmtRefs (arenas : Arenas) : List StmtId := arenas.stmts.toList.flatMap Stmt.childStmts

/-- Every place is referred to once, counting the places that wait for a parent. -/
structure Owned (arenas : Arenas) (exprs : List ExprId) (stmts : List StmtId) : Prop where
  expr : ∀ id : ExprId,
    (arenas.exprRefs ++ exprs).count id = if id.index < arenas.exprs.size then 1 else 0
  stmt : ∀ id : StmtId,
    (arenas.stmtRefs ++ stmts).count id = if id.index < arenas.stmts.size then 1 else 0

theorem Owned.empty : Arenas.empty.Owned [] [] where
  expr _ := rfl
  stmt _ := rfl

theorem Owned.perm {arenas : Arenas} {exprs exprs' : List ExprId} {stmts stmts' : List StmtId}
    (owned : arenas.Owned exprs stmts) (sameExprs : exprs.Perm exprs')
    (sameStmts : stmts.Perm stmts') : arenas.Owned exprs' stmts' where
  expr id := by rw [← owned.expr id, (sameExprs.append_left _).count_eq]
  stmt id := by rw [← owned.stmt id, (sameStmts.append_left _).count_eq]

end Arenas

namespace Builder

variable {before : Arenas} {exprs : List ExprId} {stmts : List StmtId}

/-- With the place at the end, every place up to there is counted once. -/
private theorem count_succ {size index count : Nat} {last : Prop} [Decidable last]
    (atEnd : last ↔ size = index) (counted : count = if index < size then 1 else 0) :
    count + (if last then 1 else 0) = if index < size + 1 then 1 else 0 := by
  by_cases same : size = index
  · subst same
    simp only [counted, atEnd.mpr rfl, Nat.lt_irrefl, Nat.lt_succ_self, ite_true, ite_false]
  · have bound : index < size + 1 ↔ index < size := by omega
    simp only [counted, atEnd, same, bound, ite_false, Nat.add_zero]

/-- The new node becomes the parent of its children and waits for one itself. -/
private theorem addExpr_owned (expr : Expr) (owned : before.Owned (expr.children ++ exprs) stmts) :
    (addExpr expr before).2.Owned ((addExpr expr before).1 :: exprs) stmts where
  expr id := by
    have counted := owned.expr id
    simp only [addExpr, Arenas.exprRefs, Array.toList_push, List.flatMap_append,
      List.flatMap_singleton, List.count_append, List.count_cons, beq_iff_eq,
      Array.size_push] at counted ⊢
    have last : (⟨before.exprs.size⟩ : ExprId) = id ↔ before.exprs.size = id.index := by
      cases id
      simp only [ExprId.mk.injEq]
    rw [← count_succ last counted]
    omega
  stmt := owned.stmt

private theorem addStmt_owned (stmt : Stmt)
    (owned : before.Owned (stmt.childExprs ++ exprs) (stmt.childStmts ++ stmts)) :
    (addStmt stmt before).2.Owned exprs ((addStmt stmt before).1 :: stmts) where
  expr id := by
    have counted := owned.expr id
    simp only [addStmt, Arenas.exprRefs, Array.toList_push, List.flatMap_append,
      List.flatMap_singleton, List.count_append] at counted ⊢
    refine Eq.trans ?_ counted
    omega
  stmt id := by
    have counted := owned.stmt id
    simp only [addStmt, Arenas.stmtRefs, Array.toList_push, List.flatMap_append,
      List.flatMap_singleton, List.count_append, List.count_cons, beq_iff_eq,
      Array.size_push] at counted ⊢
    have last : (⟨before.stmts.size⟩ : StmtId) = id ↔ before.stmts.size = id.index := by
      cases id
      simp only [StmtId.mk.injEq]
    rw [← count_succ last counted]
    omega

end Builder

namespace Tree

namespace Expr

variable {stmts : List StmtId}

private theorem allocateList_owned (trees : List Expr)
    (each : ∀ tree ∈ trees, ∀ (before : Arenas) (exprs : List ExprId),
      before.Owned exprs stmts →
        (tree.allocate before).2.Owned ((tree.allocate before).1 :: exprs) stmts)
    (before : Arenas) (exprs : List ExprId) (owned : before.Owned exprs stmts) :
    (allocateList trees before).2.Owned ((allocateList trees before).1 ++ exprs) stmts := by
  induction trees generalizing before exprs with
  | nil => exact owned
  | cons tree trees ih =>
    have first := each tree List.mem_cons_self before exprs owned
    have rest := ih (fun other member => each other (List.mem_cons_of_mem _ member)) _ _ first
    exact rest.perm List.perm_middle (.refl _)

/-- An expression that is added waits for a parent, and all its parts have theirs. -/
theorem allocate_owned (tree : Expr) (before : Arenas) (exprs : List ExprId)
    (owned : before.Owned exprs stmts) :
    (tree.allocate before).2.Owned ((tree.allocate before).1 :: exprs) stmts := by
  induction tree using byChildren generalizing before exprs with
  | step tree ih =>
    cases tree with
    | name | literal | this | lambda | missing => exact Builder.addExpr_owned _ owned
    | field inner | unary _ inner | instanceOf inner | paren inner | cast _ inner
    | methodRef inner =>
      have first := ih inner List.mem_cons_self before exprs owned
      exact Builder.addExpr_owned _ first
    | index left right | assign left right =>
      have first := ih left List.mem_cons_self before exprs owned
      have second := ih right (by simp [children]) _ _ first
      exact Builder.addExpr_owned _ (second.perm (.swap _ _ _) (.refl _))
    | new _ arguments | chain _ arguments =>
      exact Builder.addExpr_owned _ (allocateList_owned arguments ih before exprs owned)
    | call callee arguments span =>
      have first := ih callee List.mem_cons_self before exprs owned
      have rest := allocateList_owned arguments
        (fun other member => ih other (List.mem_cons_of_mem _ member)) _ _ first
      exact Builder.addExpr_owned _ (rest.perm List.perm_middle (.refl _))
    | conditional condition whenTrue whenFalse span =>
      have first := ih condition List.mem_cons_self before exprs owned
      have second := ih whenTrue (by simp [children]) _ _ first
      have third := ih whenFalse (by simp [children]) _ _ second
      -- The last place to be added stands first in the list.
      exact Builder.addExpr_owned _
        (third.perm ((List.reverse_perm [_, _, _]).symm.append_right exprs) (.refl _))

private theorem allocateOption_owned (tree : Option Expr) (before : Arenas) (exprs : List ExprId)
    (owned : before.Owned exprs stmts) :
    (allocateOption tree before).2.Owned ((allocateOption tree before).1.toList ++ exprs)
      stmts := by
  cases tree with
  | none => exact owned
  | some tree => exact tree.allocate_owned before exprs owned

end Expr

namespace Stmt

private theorem allocateList_owned (trees : List Stmt)
    (each : ∀ tree ∈ trees, ∀ (before : Arenas) (exprs : List ExprId) (stmts : List StmtId),
      before.Owned exprs stmts →
        (tree.allocate before).2.Owned exprs ((tree.allocate before).1 :: stmts))
    (before : Arenas) (exprs : List ExprId) (stmts : List StmtId)
    (owned : before.Owned exprs stmts) :
    (allocateList trees before).2.Owned exprs ((allocateList trees before).1 ++ stmts) := by
  induction trees generalizing before stmts with
  | nil => exact owned
  | cons tree trees ih =>
    have first := each tree List.mem_cons_self before exprs stmts owned
    have rest := ih (fun other member => each other (List.mem_cons_of_mem _ member)) _ _ first
    exact rest.perm (.refl _) List.perm_middle

private theorem allocateOption_owned (tree : Option Stmt)
    (each : ∀ only ∈ tree.toList, ∀ (before : Arenas) (exprs : List ExprId) (stmts : List StmtId),
      before.Owned exprs stmts →
        (only.allocate before).2.Owned exprs ((only.allocate before).1 :: stmts))
    (before : Arenas) (exprs : List ExprId) (stmts : List StmtId)
    (owned : before.Owned exprs stmts) :
    (allocateOption tree before).2.Owned exprs
      ((allocateOption tree before).1.toList ++ stmts) := by
  cases tree with
  | none => exact owned
  | some tree => exact each tree (List.mem_singleton_self _) before exprs stmts owned

/-- A statement that is added waits for a parent, and all its parts have theirs. -/
theorem allocate_owned (tree : Stmt) (before : Arenas) (exprs : List ExprId)
    (stmts : List StmtId) (owned : before.Owned exprs stmts) :
    (tree.allocate before).2.Owned exprs ((tree.allocate before).1 :: stmts) := by
  induction tree using byChildren generalizing before exprs stmts with
  | step tree ih =>
    cases tree with
    | skipped | empty => exact Builder.addStmt_owned _ owned
    | block statements span =>
      exact Builder.addStmt_owned _ (allocateList_owned statements ih before exprs stmts owned)
    | ifElse condition whenTrue whenFalse span =>
      have first := condition.allocate_owned before exprs owned
      have second := ih whenTrue List.mem_cons_self _ _ _ first
      have third := allocateOption_owned whenFalse
        (fun other member => ih other (List.mem_cons_of_mem _ member)) _ _ _ second
      exact Builder.addStmt_owned _ (third.perm (.refl _) List.perm_middle)
    | throws value | expr value =>
      exact Builder.addStmt_owned _ (value.allocate_owned before exprs owned)
    | returns value | «local» _ value =>
      exact Builder.addStmt_owned _ (Expr.allocateOption_owned value before exprs owned)
    | assert condition message span =>
      have first := condition.allocate_owned before exprs owned
      have second := Expr.allocateOption_owned message _ _ first
      exact Builder.addStmt_owned _ (second.perm List.perm_middle (.refl _))
    | «while» condition body span =>
      have first := condition.allocate_owned before exprs owned
      exact Builder.addStmt_owned _ (ih body List.mem_cons_self _ _ _ first)

end Stmt

end Tree
end MethodContracts
