import MethodContracts.Body.Validity

/-!
# What the check of a body establishes

A body is accepted exactly if it has only references that make sense.
-/
namespace MethodContracts

theorem Stmt.lt_of_fault?_eq_none (exprCount parent : Nat) (stmt : Stmt)
    (accepted : stmt.fault? exprCount parent = none) :
    (∀ child ∈ stmt.childStmts, child.index < parent) ∧
      ∀ child ∈ stmt.childExprs, child.index < exprCount := by
  unfold fault? at accepted
  split at accepted
  next => cases accepted
  next found =>
    have stmts := List.find?_eq_none.mp found
    have exprs := List.find?_eq_none.mp (Option.map_eq_none_iff.mp accepted)
    constructor
    · intro child member
      simpa using stmts child member
    · intro child member
      simpa using exprs child member

theorem Expr.lt_of_fault?_eq_none (parent : Nat) (expr : Expr)
    (accepted : expr.fault? parent = none) : ∀ child ∈ expr.children, child.index < parent := by
  intro child member
  have exprs := List.find?_eq_none.mp (Option.map_eq_none_iff.mp accepted)
  simpa using exprs child member

private theorem Stmt.fault?_eq_none (exprCount parent : Nat) (stmt : Stmt)
    (stmts : ∀ child ∈ stmt.childStmts, child.index < parent)
    (exprs : ∀ child ∈ stmt.childExprs, child.index < exprCount) :
    stmt.fault? exprCount parent = none := by
  have noStmt : (stmt.childStmts.find? fun child => parent ≤ child.index) = none := by
    simpa using stmts
  have noExpr : (stmt.childExprs.find? fun child => exprCount ≤ child.index) = none := by
    simpa using exprs
  simp only [fault?, noStmt, noExpr, Option.map_none]

private theorem Expr.fault?_eq_none (parent : Nat) (expr : Expr)
    (exprs : ∀ child ∈ expr.children, child.index < parent) : expr.fault? parent = none := by
  have noExpr : (expr.children.find? fun child => parent ≤ child.index) = none := by
    simpa using exprs
  simp only [fault?, noExpr, Option.map_none]

namespace Body

theorem valid_of_fault?_eq_none (body : Body) (accepted : body.fault? = none) : body.Valid := by
  unfold fault? at accepted
  split at accepted
  next => cases accepted
  next inside =>
    rw [Option.orElse_eq_orElse, Option.orElse_eq_or, Option.or_eq_none_iff] at accepted
    obtain ⟨stmts, exprs⟩ := accepted
    -- The check goes over the nodes with their places.
    have stmtAccepted (parent : Nat) (stmt : Stmt) (found : body.stmts[parent]? = some stmt) :
        stmt.fault? body.exprs.size parent = none := by
      refine List.findSome?_eq_none_iff.mp stmts (stmt, parent) ?_
      rw [List.mem_zipIdx_iff_getElem?, Array.getElem?_toList]
      exact found
    have exprAccepted (parent : Nat) (expr : Expr) (found : body.exprs[parent]? = some expr) :
        expr.fault? parent = none := by
      refine List.findSome?_eq_none_iff.mp exprs (expr, parent) ?_
      rw [List.mem_zipIdx_iff_getElem?, Array.getElem?_toList]
      exact found
    exact {
      root_lt := by omega
      stmt_lt := fun parent stmt found =>
        (stmt.lt_of_fault?_eq_none _ parent (stmtAccepted parent stmt found)).1
      stmt_expr_lt := fun parent stmt found =>
        (stmt.lt_of_fault?_eq_none _ parent (stmtAccepted parent stmt found)).2
      expr_lt := fun parent expr found =>
        expr.lt_of_fault?_eq_none parent (exprAccepted parent expr found) }

theorem valid_of_validate (body : Body) (accepted : body.validate = .ok ()) : body.Valid := by
  apply body.valid_of_fault?_eq_none
  unfold validate at accepted
  split at accepted
  · cases accepted
  · assumption

private theorem fault?_eq_none_of_valid (body : Body) (valid : body.Valid) :
    body.fault? = none := by
  have inside : ¬body.stmts.size ≤ body.root.index := Nat.not_le_of_lt valid.root_lt
  rw [fault?, if_neg inside, Option.orElse_eq_orElse, Option.orElse_eq_or, Option.or_eq_none_iff]
  constructor
  · rw [List.findSome?_eq_none_iff]
    rintro ⟨stmt, parent⟩ member
    rw [List.mem_zipIdx_iff_getElem?, Array.getElem?_toList] at member
    exact stmt.fault?_eq_none _ parent (valid.stmt_lt parent stmt member)
      (valid.stmt_expr_lt parent stmt member)
  · rw [List.findSome?_eq_none_iff]
    rintro ⟨expr, parent⟩ member
    rw [List.mem_zipIdx_iff_getElem?, Array.getElem?_toList] at member
    exact expr.fault?_eq_none parent (valid.expr_lt parent expr member)

theorem validate_of_valid (body : Body) (valid : body.Valid) : body.validate = .ok () := by
  simp only [validate, body.fault?_eq_none_of_valid valid]

/-- Every place of an arena below its size holds a node. -/
theorem exists_expr? (body : Body) (id : ExprId) (inside : id.index < body.exprs.size) :
    ∃ expr, body.expr? id = some expr :=
  ⟨body.exprs[id.index], Array.getElem?_eq_getElem inside⟩

theorem exists_stmt? (body : Body) (id : StmtId) (inside : id.index < body.stmts.size) :
    ∃ stmt, body.stmt? id = some stmt :=
  ⟨body.stmts[id.index], Array.getElem?_eq_getElem inside⟩

theorem lt_of_expr? (body : Body) (id : ExprId) (expr : Expr) (found : body.expr? id = some expr) :
    id.index < body.exprs.size :=
  (Array.getElem?_eq_some_iff.mp found).choose

theorem lt_of_stmt? (body : Body) (id : StmtId) (stmt : Stmt) (found : body.stmt? id = some stmt) :
    id.index < body.stmts.size :=
  (Array.getElem?_eq_some_iff.mp found).choose

/-- What passes from the parts of every expression of a valid body to the expression holds
of all of its expressions. -/
theorem exprs_induction {body : Body} (valid : body.Valid) {motive : ExprId → Prop}
    (step : ∀ id expr, body.expr? id = some expr → (∀ child ∈ expr.children, motive child) →
      motive id) (id : ExprId) (inside : id.index < body.exprs.size) : motive id := by
  obtain ⟨index⟩ := id
  induction index using Nat.strongRecOn with
  | ind index ih =>
    obtain ⟨expr, found⟩ := body.exists_expr? ⟨index⟩ inside
    apply step ⟨index⟩ expr found
    intro child member
    have before := valid.expr_lt index expr found child member
    exact ih child.index before (Nat.lt_trans before inside)

/-- The same for statements. -/
theorem stmts_induction {body : Body} (valid : body.Valid) {motive : StmtId → Prop}
    (step : ∀ id stmt, body.stmt? id = some stmt → (∀ child ∈ stmt.childStmts, motive child) →
      motive id) (id : StmtId) (inside : id.index < body.stmts.size) : motive id := by
  obtain ⟨index⟩ := id
  induction index using Nat.strongRecOn with
  | ind index ih =>
    obtain ⟨stmt, found⟩ := body.exists_stmt? ⟨index⟩ inside
    apply step ⟨index⟩ stmt found
    intro child member
    have before := valid.stmt_lt index stmt found child member
    exact ih child.index before (Nat.lt_trans before inside)

end Body
end MethodContracts
