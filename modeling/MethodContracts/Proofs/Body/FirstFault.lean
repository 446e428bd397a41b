import Mathlib.Data.List.Lex
import MethodContracts.Proofs.Body.Validity

/-!
# Which fault the check of a body reports

The fields of a node in which it refers to others are listed here one by one, each with its
place among them. In these terms a body is accepted exactly if every field refers to what
it may refer to, and otherwise the check reports the first field that does not: the root is
looked at first, then the statements in order, each with its statements before its
expressions, then the expressions in order.
-/
namespace MethodContracts

/-! ## The fields of nodes -/

/-- The field at a place among those in which an expression refers to expressions. -/
inductive Expr.ExprAt : Expr → Nat → ExprId → Prop where
  | receiver {receiver : ExprId} {name : String} {span : Span} :
    ExprAt (.field receiver name span) 0 receiver
  | array {array position : ExprId} {span : Span} : ExprAt (.index array position span) 0 array
  | position {array position : ExprId} {span : Span} :
    ExprAt (.index array position span) 1 position
  | callee {callee : ExprId} {arguments : List ExprId} {span : Span} :
    ExprAt (.call callee arguments span) 0 callee
  | argument {callee id : ExprId} {arguments : List ExprId} {span : Span} {place : Nat}
    (listed : arguments[place]? = some id) : ExprAt (.call callee arguments span) (place + 1) id
  | newArgument {type : String} {id : ExprId} {arguments : List ExprId} {span : Span} {place : Nat}
    (listed : arguments[place]? = some id) : ExprAt (.new type arguments span) place id
  | operand {op : UnaryOp} {operand : ExprId} {span : Span} :
    ExprAt (.unary op operand span) 0 operand
  | chained {op : BinaryOp} {id : ExprId} {operands : List ExprId} {span : Span} {place : Nat}
    (listed : operands[place]? = some id) : ExprAt (.chain op operands span) place id
  | tested {operand : ExprId} {type : String} {span : Span} :
    ExprAt (.instanceOf operand type span) 0 operand
  | condition {condition whenTrue whenFalse : ExprId} {span : Span} :
    ExprAt (.conditional condition whenTrue whenFalse span) 0 condition
  | whenTrue {condition whenTrue whenFalse : ExprId} {span : Span} :
    ExprAt (.conditional condition whenTrue whenFalse span) 1 whenTrue
  | whenFalse {condition whenTrue whenFalse : ExprId} {span : Span} :
    ExprAt (.conditional condition whenTrue whenFalse span) 2 whenFalse
  | inner {inner : ExprId} {span : Span} : ExprAt (.paren inner span) 0 inner
  | target {target value : ExprId} {span : Span} : ExprAt (.assign target value span) 0 target
  | value {target value : ExprId} {span : Span} : ExprAt (.assign target value span) 1 value
  | converted {type : String} {operand : ExprId} {span : Span} :
    ExprAt (.cast type operand span) 0 operand
  | methodReceiver {receiver : ExprId} {name : String} {span : Span} :
    ExprAt (.methodRef receiver name span) 0 receiver

/-- The field at a place among those in which a statement refers to statements. -/
inductive Stmt.StmtAt : Stmt → Nat → StmtId → Prop where
  | inner {id : StmtId} {statements : List StmtId} {span : Span} {place : Nat}
    (listed : statements[place]? = some id) : StmtAt (.block statements span) place id
  | whenTrue {condition : ExprId} {whenTrue : StmtId} {whenFalse : Option StmtId} {span : Span} :
    StmtAt (.ifElse condition whenTrue whenFalse span) 0 whenTrue
  | whenFalse {condition : ExprId} {whenTrue whenFalse : StmtId} {span : Span} :
    StmtAt (.ifElse condition whenTrue (some whenFalse) span) 1 whenFalse
  | body {condition : ExprId} {body : StmtId} {span : Span} :
    StmtAt (.while condition body span) 0 body

/-- The field at a place among those in which a statement refers to expressions. -/
inductive Stmt.ExprAt : Stmt → Nat → ExprId → Prop where
  | decides {condition : ExprId} {whenTrue : StmtId} {whenFalse : Option StmtId} {span : Span} :
    ExprAt (.ifElse condition whenTrue whenFalse span) 0 condition
  | thrown {value : ExprId} {span : Span} : ExprAt (.throws value span) 0 value
  | returned {value : ExprId} {span : Span} : ExprAt (.returns (some value) span) 0 value
  | asserted {condition : ExprId} {message : Option ExprId} {span : Span} :
    ExprAt (.assert condition message span) 0 condition
  | message {condition message : ExprId} {span : Span} :
    ExprAt (.assert condition (some message) span) 1 message
  | repeats {condition : ExprId} {body : StmtId} {span : Span} :
    ExprAt (.while condition body span) 0 condition
  | init {name : String} {init : ExprId} {span : Span} :
    ExprAt (.local name (some init) span) 0 init
  | evaluated {expr : ExprId} {span : Span} : ExprAt (.expr expr span) 0 expr

private theorem Expr.children_getElem? (expr : Expr) (place : Nat) (id : ExprId) :
    expr.children[place]? = some id ↔ expr.ExprAt place id := by
  constructor
  · intro listed
    cases expr <;> simp only [children] at listed
    case call =>
      cases place with
      | zero => cases listed; exact .callee
      | succ place => exact .argument listed
    case new => exact .newArgument listed
    case chain => exact .chained listed
    all_goals
      -- No other expression has more than three parts.
      match place with
      | 0 => cases listed <;> constructor
      | 1 => cases listed <;> constructor
      | 2 => cases listed <;> constructor
      | _ + 3 => cases listed
  · intro isAt
    cases isAt <;> first | rfl | assumption

private theorem Stmt.childStmts_getElem? (stmt : Stmt) (place : Nat) (id : StmtId) :
    stmt.childStmts[place]? = some id ↔ stmt.StmtAt place id := by
  constructor
  · intro listed
    cases stmt <;> simp only [childStmts] at listed
    case block => exact .inner listed
    case ifElse condition whenTrue whenFalse span =>
      cases place with
      | zero => cases listed; exact .whenTrue
      | succ place => cases whenFalse <;> cases place <;> cases listed; exact .whenFalse
    case «while» => cases place <;> cases listed; exact .body
    all_goals cases listed
  · intro isAt
    cases isAt <;> first | rfl | assumption

private theorem Stmt.childExprs_getElem? (stmt : Stmt) (place : Nat) (id : ExprId) :
    stmt.childExprs[place]? = some id ↔ stmt.ExprAt place id := by
  constructor
  · intro listed
    cases stmt <;> simp only [childExprs] at listed
    case assert condition message span =>
      cases place with
      | zero => cases listed; exact .asserted
      | succ place => cases message <;> cases place <;> cases listed; exact .message
    case returns value span => cases value <;> cases place <;> cases listed; exact .returned
    case «local» name init span => cases init <;> cases place <;> cases listed; exact .init
    -- The others have one expression or none.
    all_goals cases place <;> cases listed <;> constructor
  · intro isAt
    cases isAt <;> rfl

namespace Body

/-- Every field of every node of the body refers to what it may refer to. -/
structure FieldsValid (body : Body) : Prop where
  root : body.root.index < body.stmts.size
  stmt : ∀ (parent : Nat) (stmt : Stmt), body.stmts[parent]? = some stmt →
    ∀ place child, stmt.StmtAt place child → child.index < parent
  stmtExpr : ∀ (parent : Nat) (stmt : Stmt), body.stmts[parent]? = some stmt →
    ∀ place child, stmt.ExprAt place child → child.index < body.exprs.size
  expr : ∀ (parent : Nat) (expr : Expr), body.exprs[parent]? = some expr →
    ∀ place child, expr.ExprAt place child → child.index < parent

theorem fieldsValid_iff (body : Body) : body.FieldsValid ↔ body.Valid := by
  -- Each child of a node is at some place of its list, and each place of the list has a child.
  have listed {α : Type} {list : List α} {holds : α → Prop} :
      (∀ (place : Nat) child, list[place]? = some child → holds child) ↔
        ∀ child ∈ list, holds child := by
    simp only [List.mem_iff_getElem?, forall_exists_index]
    exact forall_comm
  constructor
  · rintro ⟨root, stmt, stmtExpr, expr⟩
    simp only [← Stmt.childStmts_getElem?, ← Stmt.childExprs_getElem?,
      ← Expr.children_getElem?, listed] at stmt stmtExpr expr
    exact ⟨root, stmt, stmtExpr, expr⟩
  · rintro ⟨root, stmt, stmtExpr, expr⟩
    constructor
    · exact root
    all_goals
      simp only [← Stmt.childStmts_getElem?, ← Stmt.childExprs_getElem?,
        ← Expr.children_getElem?, listed]
      assumption

end Body

/-! ## The order of the check -/

/-- What the check looks at: the root, or a field of the node at a place of its arena. -/
inductive Reference where
  | root
  | stmt (parent place : Nat)
  | stmtExpr (parent place : Nat)
  | expr (parent place : Nat)
deriving DecidableEq, Repr

namespace Reference

/-- The turn of a reference in the check, compared number by number. -/
def turn : Reference → List Nat
  | .root => [0]
  | .stmt parent place => [1, parent, 0, place]
  | .stmtExpr parent place => [1, parent, 1, place]
  | .expr parent place => [2, parent, place]

/-- The check looks at the one reference before the other. -/
def Before (first second : Reference) : Prop := first.turn < second.turn

theorem turn_injective : Function.Injective turn := by
  intro first second same
  cases first <;> cases second <;> simp_all [turn]

theorem before_trichotomy (first second : Reference) :
    first.Before second ∨ first = second ∨ second.Before first := by
  rcases lt_trichotomy first.turn second.turn with before | same | behind
  · exact .inl before
  · exact .inr (.inl (turn_injective same))
  · exact .inr (.inr behind)

section Turns

variable {reference : Reference} {parent parent' place place' : Nat}

theorem not_before_root : ¬reference.Before .root := by
  cases reference <;> simp [Before, turn, List.cons_lt_cons_iff]

theorem stmt_before_stmt : (stmt parent' place').Before (stmt parent place) ↔
    parent' < parent ∨ parent' = parent ∧ place' < place := by
  simp [Before, turn, List.cons_lt_cons_iff]

theorem stmtExpr_before_stmt :
    (stmtExpr parent' place').Before (stmt parent place) ↔ parent' < parent := by
  simp [Before, turn, List.cons_lt_cons_iff]

theorem stmt_before_stmtExpr :
    (stmt parent' place').Before (stmtExpr parent place) ↔ parent' ≤ parent := by
  simp only [Before, turn, List.cons_lt_cons_iff, Nat.lt_irrefl, Nat.zero_lt_one, true_and,
    true_or, false_or, and_true]
  omega

theorem stmtExpr_before_stmtExpr : (stmtExpr parent' place').Before (stmtExpr parent place) ↔
    parent' < parent ∨ parent' = parent ∧ place' < place := by
  simp [Before, turn, List.cons_lt_cons_iff]

theorem expr_before_expr : (expr parent' place').Before (expr parent place) ↔
    parent' < parent ∨ parent' = parent ∧ place' < place := by
  simp [Before, turn, List.cons_lt_cons_iff]

theorem not_expr_before_stmt : ¬(expr parent' place').Before (stmt parent place) := by
  simp [Before, turn, List.cons_lt_cons_iff]

theorem not_expr_before_stmtExpr : ¬(expr parent' place').Before (stmtExpr parent place) := by
  simp [Before, turn, List.cons_lt_cons_iff]

end Turns

end Reference

namespace Body

/-- The reference does not make sense, and this error says so. -/
inductive Violates (body : Body) : Reference → BodyError → Prop where
  | root (beyond : body.stmts.size ≤ body.root.index) :
    Violates body .root (.rootOutOfRange body.root)
  | stmt {parent place : Nat} {stmt : Stmt} {child : StmtId}
    (found : body.stmts[parent]? = some stmt) (isAt : stmt.StmtAt place child)
    (late : parent ≤ child.index) :
    Violates body (.stmt parent place) (.badStmtRef parent child)
  | stmtExpr {parent place : Nat} {stmt : Stmt} {child : ExprId}
    (found : body.stmts[parent]? = some stmt) (isAt : stmt.ExprAt place child)
    (dangling : body.exprs.size ≤ child.index) :
    Violates body (.stmtExpr parent place) (.badStmtExprRef parent child)
  | expr {parent place : Nat} {expr : Expr} {child : ExprId}
    (found : body.exprs[parent]? = some expr) (isAt : expr.ExprAt place child)
    (late : parent ≤ child.index) :
    Violates body (.expr parent place) (.badExprRef parent child)

/-- The check reports the error for the first reference that does not make sense. -/
def FirstFault (body : Body) (error : BodyError) : Prop :=
  ∃ reference, body.Violates reference error ∧
    ∀ earlier other, earlier.Before reference → ¬body.Violates earlier other

variable {body : Body} {reference : Reference} {error other : BodyError}

/-- A reference has one error at most. -/
theorem Violates.unique (first : body.Violates reference error)
    (second : body.Violates reference other) : error = other := by
  -- A reference names the node and the place in it, so there is one child it can mean.
  cases first with
  | root => cases second; rfl
  | stmt found isAt =>
    cases second with
    | stmt found' isAt' =>
      cases found.symm.trans found'
      rw [← Stmt.childStmts_getElem?] at isAt isAt'
      cases isAt.symm.trans isAt'
      rfl
  | stmtExpr found isAt =>
    cases second with
    | stmtExpr found' isAt' =>
      cases found.symm.trans found'
      rw [← Stmt.childExprs_getElem?] at isAt isAt'
      cases isAt.symm.trans isAt'
      rfl
  | expr found isAt =>
    cases second with
    | expr found' isAt' =>
      cases found.symm.trans found'
      rw [← Expr.children_getElem?] at isAt isAt'
      cases isAt.symm.trans isAt'
      rfl

/-- There is one first fault at most. -/
theorem FirstFault.unique (first : body.FirstFault error) (second : body.FirstFault other) :
    error = other := by
  obtain ⟨reference, violates, earliest⟩ := first
  obtain ⟨reference', violates', earliest'⟩ := second
  rcases reference.before_trichotomy reference' with before | rfl | behind
  · exact absurd violates (earliest' _ _ before)
  · exact violates.unique violates'
  · exact absurd violates' (earliest _ _ behind)

end Body

/-! ## The check finds it -/

section Search

variable {α β : Type}

/-- A search of a list finds the first element with the property. -/
private theorem exists_first_of_find? {test : α → Bool} {list : List α} {value : α}
    (found : list.find? test = some value) :
    ∃ place : Nat, list[place]? = some value ∧ test value = true ∧
      ∀ before < place, ∀ other, list[before]? = some other → test other = false := by
  obtain ⟨passes, place, inside, rfl, earlier⟩ := List.find?_eq_some_iff_getElem.mp found
  have isValue : list[place]? = some list[place] := List.getElem?_eq_getElem inside
  refine ⟨place, isValue, passes, ?_⟩
  intro before less other listed
  have failed := earlier before less
  rw [List.getElem?_eq_getElem (Nat.lt_trans less inside)] at listed
  cases listed
  simpa using failed

/-- A search of the values of fields finds the first field whose value has the property. -/
private theorem exists_first_at {list : List α} {At : Nat → α → Prop}
    (listed : ∀ place value, list[place]? = some value ↔ At place value) {test : α → Bool}
    {value : α} (found : list.find? test = some value) :
    ∃ place, At place value ∧ test value = true ∧
      ∀ before < place, ∀ other, At before other → test other = false := by
  obtain ⟨place, isValue, passes, earlier⟩ := exists_first_of_find? found
  refine ⟨place, (listed place value).mp isValue, passes, ?_⟩
  intro before less other isAt
  exact earlier before less other ((listed before other).mpr isAt)

/-- A search of an arena finds the first node for which the search inside it finds something. -/
private theorem exists_first_of_findSome? {search : α × Nat → Option β} {list : List α} {value : β}
    (found : list.zipIdx.findSome? search = some value) :
    ∃ (place : Nat) (node : α), list[place]? = some node ∧ search (node, place) = some value ∧
      ∀ before < place, ∀ other, list[before]? = some other → search (other, before) = none := by
  obtain ⟨front, ⟨node, place⟩, back, split, finds, earlier⟩ := List.findSome?_eq_some_iff.mp found
  -- The place of a node in the list is the length of what stands in front of it.
  have listed (index : Nat) : (list.zipIdx)[index]? = (front ++ (node, place) :: back)[index]? :=
    congrArg (·[index]?) split
  simp only [List.getElem?_zipIdx, Nat.zero_add] at listed
  have here := listed front.length
  simp only [List.getElem?_append_right, Nat.le_refl, Nat.sub_self, List.getElem?_cons_zero,
    Option.map_eq_some_iff, Prod.mk.injEq] at here
  obtain ⟨_, isNode, rfl, rfl⟩ := here
  refine ⟨front.length, _, isNode, finds, ?_⟩
  intro before less other isOther
  have there := listed before
  rw [isOther, Option.map_some, List.getElem?_append_left less] at there
  exact earlier (other, before) (List.mem_of_getElem? there.symm)

end Search

/-- The fault of a statement is that of its first statement that does not stand before it, or,
if there is none, that of its first expression that does not exist. -/
private theorem Stmt.exists_first_of_fault? {stmt : Stmt} {exprCount parent : Nat}
    {error : BodyError} (faulty : stmt.fault? exprCount parent = some error) :
    (∃ place child, stmt.StmtAt place child ∧ parent ≤ child.index ∧
        error = .badStmtRef parent child ∧
        ∀ before < place, ∀ other, stmt.StmtAt before other → other.index < parent) ∨
      (∀ place child, stmt.StmtAt place child → child.index < parent) ∧
        ∃ place child, stmt.ExprAt place child ∧ exprCount ≤ child.index ∧
          error = .badStmtExprRef parent child ∧
          ∀ before < place, ∀ other, stmt.ExprAt before other → other.index < exprCount := by
  unfold fault? at faulty
  split at faulty
  next child found =>
    -- A statement that does not stand before this one comes before all expressions.
    obtain ⟨place, isAt, late, earlier⟩ := exists_first_at stmt.childStmts_getElem? found
    cases faulty
    exact .inl ⟨place, child, isAt, by simpa using late, rfl, by simpa using earlier⟩
  next none =>
    obtain ⟨child, found, rfl⟩ := Option.map_eq_some_iff.mp faulty
    obtain ⟨place, isAt, late, earlier⟩ := exists_first_at stmt.childExprs_getElem? found
    refine .inr ⟨?_, place, child, isAt, by simpa using late, rfl, by simpa using earlier⟩
    intro place child isAt
    have member := List.mem_of_getElem? ((stmt.childStmts_getElem? place child).mpr isAt)
    simpa using List.find?_eq_none.mp none child member

private theorem Expr.exists_first_of_fault? {expr : Expr} {parent : Nat} {error : BodyError}
    (faulty : expr.fault? parent = some error) :
    ∃ place child, expr.ExprAt place child ∧ parent ≤ child.index ∧
      error = .badExprRef parent child ∧
      ∀ before < place, ∀ other, expr.ExprAt before other → other.index < parent := by
  obtain ⟨child, found, rfl⟩ := Option.map_eq_some_iff.mp faulty
  obtain ⟨place, isAt, late, earlier⟩ := exists_first_at expr.children_getElem? found
  exact ⟨place, child, isAt, by simpa using late, rfl, by simpa using earlier⟩

namespace Body

variable {body : Body} {error : BodyError}

theorem FieldsValid.not_violates {reference : Reference} (valid : body.FieldsValid) :
    ¬body.Violates reference error := by
  intro violates
  cases violates with
  | root beyond => exact Nat.not_le_of_lt valid.root beyond
  | stmt found isAt late => exact Nat.not_le_of_lt (valid.stmt _ _ found _ _ isAt) late
  | stmtExpr found isAt dangling =>
    exact Nat.not_le_of_lt (valid.stmtExpr _ _ found _ _ isAt) dangling
  | expr found isAt late => exact Nat.not_le_of_lt (valid.expr _ _ found _ _ isAt) late

/-- A node has a fault if one of its references does not make sense. -/
theorem Violates.faulty {reference : Reference} (violates : body.Violates reference error) :
    match reference with
    | .root => True
    | .stmt parent _ | .stmtExpr parent _ =>
      ∃ stmt, body.stmts[parent]? = some stmt ∧ stmt.fault? body.exprs.size parent ≠ none
    | .expr parent _ => ∃ expr, body.exprs[parent]? = some expr ∧ expr.fault? parent ≠ none := by
  cases violates with
  | root => trivial
  | @stmt parent place stmt child found isAt late =>
    refine ⟨stmt, found, fun sane => ?_⟩
    have refers := List.mem_of_getElem? ((stmt.childStmts_getElem? place child).mpr isAt)
    have := (stmt.lt_of_fault?_eq_none _ parent sane).1 child refers
    omega
  | @stmtExpr parent place stmt child found isAt dangling =>
    refine ⟨stmt, found, fun sane => ?_⟩
    have refers := List.mem_of_getElem? ((stmt.childExprs_getElem? place child).mpr isAt)
    have := (stmt.lt_of_fault?_eq_none _ parent sane).2 child refers
    omega
  | @expr parent place expr child found isAt late =>
    refine ⟨expr, found, fun sane => ?_⟩
    have refers := List.mem_of_getElem? ((expr.children_getElem? place child).mpr isAt)
    have := expr.lt_of_fault?_eq_none parent sane child refers
    omega

/-- Where the statements before it have no fault, the first fault of a statement is that of
the body. -/
private theorem firstFault_of_stmt {parent : Nat} {stmt : Stmt}
    (inside : body.root.index < body.stmts.size) (found : body.stmts[parent]? = some stmt)
    (faulty : stmt.fault? body.exprs.size parent = some error)
    (sane : ∀ before < parent, ∀ other, body.stmts[before]? = some other →
      other.fault? body.exprs.size before = none) : body.FirstFault error := by
  -- A violation in an earlier statement would be a fault of that statement.
  have notBefore {before : Nat} (less : before < parent) : ¬∃ other,
      body.stmts[before]? = some other ∧ other.fault? body.exprs.size before ≠ none :=
    fun ⟨other, isOther, faulty⟩ => faulty (sane before less other isOther)
  rcases Stmt.exists_first_of_fault? faulty with
    ⟨place, child, isAt, late, rfl, first⟩ | ⟨noStmt, place, child, isAt, dangling, rfl, first⟩
  · refine ⟨_, .stmt found isAt late, ?_⟩
    intro earlier other before violates
    have faulty := violates.faulty
    cases violates with
    | root beyond => omega
    | stmt found' isAt' =>
      rcases Reference.stmt_before_stmt.mp before with less | ⟨rfl, less⟩
      · exact notBefore less faulty
      · cases found.symm.trans found'
        have := first _ less _ isAt'
        omega
    | stmtExpr => exact notBefore (Reference.stmtExpr_before_stmt.mp before) faulty
    | expr => exact Reference.not_expr_before_stmt before
  · refine ⟨_, .stmtExpr found isAt dangling, ?_⟩
    intro earlier other before violates
    have faulty := violates.faulty
    cases violates with
    | root beyond => omega
    | stmt found' isAt' =>
      rcases Nat.eq_or_lt_of_le (Reference.stmt_before_stmtExpr.mp before) with rfl | less
      · cases found.symm.trans found'
        have := noStmt _ _ isAt'
        omega
      · exact notBefore less faulty
    | stmtExpr found' isAt' =>
      rcases Reference.stmtExpr_before_stmtExpr.mp before with less | ⟨rfl, less⟩
      · exact notBefore less faulty
      · cases found.symm.trans found'
        have := first _ less _ isAt'
        omega
    | expr => exact Reference.not_expr_before_stmtExpr before

/-- Where no statement has a fault, nor an expression before it, the first fault of an expression
is that of the body. -/
private theorem firstFault_of_expr {parent : Nat} {expr : Expr}
    (inside : body.root.index < body.stmts.size)
    (saneStmts : ∀ (place : Nat) (stmt : Stmt), body.stmts[place]? = some stmt →
      stmt.fault? body.exprs.size place = none)
    (found : body.exprs[parent]? = some expr) (faulty : expr.fault? parent = some error)
    (sane : ∀ before < parent, ∀ other, body.exprs[before]? = some other →
      other.fault? before = none) : body.FirstFault error := by
  obtain ⟨place, child, isAt, late, rfl, first⟩ := Expr.exists_first_of_fault? faulty
  refine ⟨_, .expr found isAt late, ?_⟩
  intro earlier other before violates
  have faulty := violates.faulty
  cases violates with
  | root beyond => omega
  -- All statements come first, and none of them has a fault.
  | stmt | stmtExpr =>
    obtain ⟨stmt, isStmt, faulty⟩ := faulty
    exact faulty (saneStmts _ stmt isStmt)
  | expr found' isAt' =>
    rcases Reference.expr_before_expr.mp before with less | ⟨rfl, less⟩
    · obtain ⟨other, isOther, faulty⟩ := faulty
      exact faulty (sane _ less other isOther)
    · cases found.symm.trans found'
      have := first _ less _ isAt'
      omega

theorem firstFault_of_fault? (faulty : body.fault? = some error) : body.FirstFault error := by
  unfold fault? at faulty
  split at faulty
  next beyond =>
    cases faulty
    refine ⟨.root, .root beyond, ?_⟩
    intro earlier other before
    exact absurd before Reference.not_before_root
  next inside =>
    rw [Nat.not_le] at inside
    rw [Option.orElse_eq_orElse, Option.orElse_eq_or, Option.or_eq_some_iff] at faulty
    -- Expressions are searched only if no statement has a fault.
    rcases faulty with inStmts | ⟨noStmt, inExprs⟩
    · obtain ⟨parent, stmt, found, faulty, sane⟩ := exists_first_of_findSome? inStmts
      simp only [Array.getElem?_toList] at found sane
      exact firstFault_of_stmt inside found faulty sane
    · obtain ⟨parent, expr, found, faulty, sane⟩ := exists_first_of_findSome? inExprs
      simp only [Array.getElem?_toList] at found sane
      refine firstFault_of_expr inside ?_ found faulty sane
      intro place stmt isStmt
      refine List.findSome?_eq_none_iff.mp noStmt (stmt, place) ?_
      rwa [List.mem_zipIdx_iff_getElem?, Array.getElem?_toList]

/-- A body is accepted exactly if every field of every node refers to what it may refer to: a
statement to statements before it and to expressions that exist, an expression to expressions
before it. Otherwise the first reference that does not is reported, as what it is. -/
theorem validate_firstFault (body : Body) :
    (body.validate = .ok () ↔ body.FieldsValid) ∧
      ∀ error, body.validate = .error error ↔ body.FirstFault error := by
  have accepted : body.validate = .ok () ↔ body.FieldsValid := by
    rw [body.fieldsValid_iff]
    exact ⟨body.valid_of_validate, body.validate_of_valid⟩
  refine ⟨accepted, fun error => ?_⟩
  -- A body has one first fault, so the one that is reported is the only one.
  have reported (found : BodyError) (faulty : body.fault? = some found) :
      body.validate = .error found := by
    simp only [validate, faulty]
  constructor
  · intro rejected
    unfold validate at rejected
    split at rejected
    next found faulty =>
      cases rejected
      exact firstFault_of_fault? faulty
    next => cases rejected
  · intro first
    cases faulty : body.fault? with
    | some found =>
      rw [reported found faulty, (firstFault_of_fault? faulty).unique first]
    | none =>
      obtain ⟨reference, violates, -⟩ := first
      have valid := body.fieldsValid_iff.mpr (body.valid_of_fault?_eq_none faulty)
      exact absurd violates valid.not_violates

/-- A block that contains itself is reported, though an expression is missing further on. -/
example : (Body.mk ⟨1⟩ #[.block [⟨0⟩] ⟨0, 0⟩, .throws ⟨3⟩ ⟨0, 0⟩] #[]).validate =
    .error (.badStmtRef 0 ⟨0⟩) := by decide

end Body
end MethodContracts
