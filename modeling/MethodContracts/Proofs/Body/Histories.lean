import MethodContracts.Proofs.Body.Validity
import MethodContracts.Proofs.Tree.Allocation

/-!
# Bodies built call by call

Whoever builds a body calls the builder again and again and passes it ids. As long
as the ids come from earlier calls of the same builder, the body is valid wherever
the calls end, and every id still names what the call that yielded it has added.
-/
namespace MethodContracts

open Builder (nowhere)

/-! ## Calls -/

/-- A call that yields an expression. -/
inductive ExprCall where
  | name (word : String)
  | null
  | bool (value : Bool)
  | int (value : Int)
  | chain (op : BinaryOp) (operands : List ExprId)
  | binary (op : BinaryOp) (left right : ExprId)
  | not (operand : ExprId)
  | paren (inner : ExprId)
  | instanceOf (operand : ExprId) (type : String)
  | conditional (condition whenTrue whenFalse : ExprId)
  | call (callee : String) (arguments : List ExprId)
  | expr (node : Expr)
deriving DecidableEq, Repr

namespace ExprCall

def run : ExprCall → Builder ExprId
  | .name word => Builder.name word
  | .null => Builder.null
  | .bool value => Builder.bool value
  | .int value => Builder.int value
  | .chain op operands => Builder.chain op operands
  | .binary op left right => Builder.binary op left right
  | .not operand => Builder.not operand
  | .paren inner => Builder.paren inner
  | .instanceOf operand type => Builder.instanceOf operand type
  | .conditional condition whenTrue whenFalse => Builder.conditional condition whenTrue whenFalse
  | .call callee arguments => Builder.call callee arguments
  | .expr node => Builder.addExpr node

/-- The ids that are passed in; those of a node count as well. -/
def exprIds : ExprCall → List ExprId
  | .name _ | .null | .bool _ | .int _ => []
  | .chain _ operands => operands
  | .binary _ left right => [left, right]
  | .not operand | .paren operand | .instanceOf operand _ => [operand]
  | .conditional condition whenTrue whenFalse => [condition, whenTrue, whenFalse]
  | .call _ arguments => arguments
  | .expr node => node.children

/-- At the place is what the call adds. A call of a method adds two expressions, and
the second of them, which is at the place, refers to the first. -/
def Names (exprs : Array Expr) (id : ExprId) : ExprCall → Prop
  | .name word => exprs[id.index]? = some (.name word nowhere)
  | .null => exprs[id.index]? = some (.literal .null "null" nowhere)
  | .bool true => exprs[id.index]? = some (.literal .isTrue "true" nowhere)
  | .bool false => exprs[id.index]? = some (.literal .isFalse "false" nowhere)
  | .int value => exprs[id.index]? = some (.literal .int (toString value) nowhere)
  | .chain op operands => exprs[id.index]? = some (.chain op operands nowhere)
  | .binary op left right => exprs[id.index]? = some (.chain op [left, right] nowhere)
  | .not operand => exprs[id.index]? = some (.unary .not operand nowhere)
  | .paren inner => exprs[id.index]? = some (.paren inner nowhere)
  | .instanceOf operand type => exprs[id.index]? = some (.instanceOf operand type nowhere)
  | .conditional condition whenTrue whenFalse =>
    exprs[id.index]? = some (.conditional condition whenTrue whenFalse nowhere)
  | .call callee arguments =>
    ∃ inner : ExprId, exprs[inner.index]? = some (.name callee nowhere) ∧
      exprs[id.index]? = some (.call inner arguments nowhere)
  | .expr node => exprs[id.index]? = some node

end ExprCall

/-- A call that yields a statement. -/
inductive StmtCall where
  | block (statements : List StmtId)
  | returns (value : Option ExprId)
  | throws (value : ExprId)
  | throwsNew (type : String)
  | ifElse (condition : ExprId) (whenTrue : StmtId) (whenFalse : Option StmtId)
  | assert (condition : ExprId)
  | exprStmt (expr : ExprId)
  | skipped (keyword : String)
  | stmt (node : Stmt)
deriving DecidableEq, Repr

namespace StmtCall

def run : StmtCall → Builder StmtId
  | .block statements => Builder.block statements
  | .returns value => Builder.returns value
  | .throws value => Builder.throws value
  | .throwsNew type => Builder.throwsNew type
  | .ifElse condition whenTrue whenFalse => Builder.ifElse condition whenTrue whenFalse
  | .assert condition => Builder.assert condition
  | .exprStmt expr => Builder.exprStmt expr
  | .skipped keyword => Builder.skipped keyword
  | .stmt node => Builder.addStmt node

def stmtIds : StmtCall → List StmtId
  | .block statements => statements
  | .ifElse _ whenTrue whenFalse => whenTrue :: whenFalse.toList
  | .returns _ | .throws _ | .throwsNew _ | .assert _ | .exprStmt _ | .skipped _ => []
  | .stmt node => node.childStmts

def exprIds : StmtCall → List ExprId
  | .block _ | .throwsNew _ | .skipped _ => []
  | .returns value => value.toList
  | .throws value | .exprStmt value => [value]
  | .ifElse condition _ _ | .assert condition => [condition]
  | .stmt node => node.childExprs

/-- At the place is what the call adds. To throw a new object is to add the object and
a statement that refers to it. -/
def Names (arenas : Arenas) (id : StmtId) : StmtCall → Prop
  | .block statements => arenas.stmts[id.index]? = some (.block statements nowhere)
  | .returns value => arenas.stmts[id.index]? = some (.returns value nowhere)
  | .throws value => arenas.stmts[id.index]? = some (.throws value nowhere)
  | .throwsNew type =>
    ∃ value : ExprId, arenas.exprs[value.index]? = some (.new type [] nowhere) ∧
      arenas.stmts[id.index]? = some (.throws value nowhere)
  | .ifElse condition whenTrue whenFalse =>
    arenas.stmts[id.index]? = some (.ifElse condition whenTrue whenFalse nowhere)
  | .assert condition => arenas.stmts[id.index]? = some (.assert condition none nowhere)
  | .exprStmt expr => arenas.stmts[id.index]? = some (.expr expr nowhere)
  | .skipped keyword => arenas.stmts[id.index]? = some (.skipped keyword nowhere)
  | .stmt node => arenas.stmts[id.index]? = some node

end StmtCall

inductive Call where
  | expr (call : ExprCall)
  | stmt (call : StmtCall)
deriving DecidableEq, Repr

/-! ## Histories -/

/-- The arenas after some calls, and what each of the calls yielded. -/
structure History where
  arenas : Arenas
  exprs : List (ExprCall × ExprId)
  stmts : List (StmtCall × StmtId)
deriving DecidableEq, Repr

namespace History

def start : History := ⟨.empty, [], []⟩

def step (history : History) : Call → History
  | .expr call =>
    let (id, arenas) := call.run history.arenas
    { history with arenas, exprs := history.exprs ++ [(call, id)] }
  | .stmt call =>
    let (id, arenas) := call.run history.arenas
    { history with arenas, stmts := history.stmts ++ [(call, id)] }

def run (history : History) (calls : List Call) : History := calls.foldl step history

def KnowsExpr (history : History) (id : ExprId) : Prop := id ∈ history.exprs.map Prod.snd

def KnowsStmt (history : History) (id : StmtId) : Prop := id ∈ history.stmts.map Prod.snd

instance (history : History) (id : ExprId) : Decidable (history.KnowsExpr id) :=
  inferInstanceAs (Decidable (id ∈ history.exprs.map Prod.snd))

instance (history : History) (id : StmtId) : Decidable (history.KnowsStmt id) :=
  inferInstanceAs (Decidable (id ∈ history.stmts.map Prod.snd))

/-- Every id that is passed in was yielded before. -/
def Allows (history : History) : Call → Prop
  | .expr call => ∀ id ∈ call.exprIds, history.KnowsExpr id
  | .stmt call =>
    (∀ id ∈ call.stmtIds, history.KnowsStmt id) ∧ ∀ id ∈ call.exprIds, history.KnowsExpr id

instance (history : History) : DecidablePred history.Allows
  | .expr call => inferInstanceAs (Decidable (∀ id ∈ call.exprIds, history.KnowsExpr id))
  | .stmt call => inferInstanceAs (Decidable ((∀ id ∈ call.stmtIds, history.KnowsStmt id) ∧
      ∀ id ∈ call.exprIds, history.KnowsExpr id))

/-- Each of the calls is allowed when it is made. -/
def AllowsAll (history : History) : List Call → Prop
  | [] => True
  | call :: calls => history.Allows call ∧ (history.step call).AllowsAll calls

instance decidableAllowsAll : (history : History) → DecidablePred history.AllowsAll
  | _, [] => inferInstanceAs (Decidable True)
  | history, call :: calls =>
    have := decidableAllowsAll (history.step call) calls
    inferInstanceAs (Decidable (history.Allows call ∧ (history.step call).AllowsAll calls))

end History

/-- How the calls end: with a root, or with the statements of a root block. -/
inductive Ending where
  | finish (root : StmtId)
  | blockBody (statements : List StmtId)
deriving DecidableEq, Repr

namespace Ending

def body (arenas : Arenas) : Ending → Body
  | .finish root => arenas.finish root
  | .blockBody statements =>
    let (root, arenas) := Builder.block statements arenas
    arenas.finish root

def stmtIds : Ending → List StmtId
  | .finish root => [root]
  | .blockBody statements => statements

/-- The root is what the ending says. -/
def NamesRoot (body : Body) : Ending → Prop
  | .finish root => body.root = root
  | .blockBody statements => body.stmt? body.root = some (.block statements nowhere)

end Ending

/-! ## What one call does -/

theorem Arenas.Extends.keepsExpr {before after : Arenas} (extended : before.Extends after)
    {place : Nat} {expr : Expr} (found : before.exprs[place]? = some expr) :
    after.exprs[place]? = some expr := by
  obtain ⟨inside, -⟩ := Array.getElem?_eq_some_iff.mp found
  rw [← extended.exprs place inside, found]

theorem Arenas.Extends.keepsStmt {before after : Arenas} (extended : before.Extends after)
    {place : Nat} {stmt : Stmt} (found : before.stmts[place]? = some stmt) :
    after.stmts[place]? = some stmt := by
  obtain ⟨inside, -⟩ := Array.getElem?_eq_some_iff.mp found
  rw [← extended.stmts place inside, found]

namespace ExprCall

theorem Names.extend {before after : Arenas} {id : ExprId} {call : ExprCall}
    (named : call.Names before.exprs id) (extended : before.Extends after) :
    call.Names after.exprs id := by
  cases call with
  | call callee arguments =>
    obtain ⟨inner, calleeNamed, callNamed⟩ := named
    exact ⟨inner, extended.keepsExpr calleeNamed, extended.keepsExpr callNamed⟩
  | bool value => cases value <;> exact extended.keepsExpr named
  | _ => exact extended.keepsExpr named

theorem Names.exists_node {exprs : Array Expr} {id : ExprId} {call : ExprCall}
    (named : call.Names exprs id) : ∃ expr, exprs[id.index]? = some expr := by
  cases call with
  | call callee arguments =>
    obtain ⟨inner, -, callNamed⟩ := named
    exact ⟨_, callNamed⟩
  | bool value => cases value <;> exact ⟨_, named⟩
  | _ => exact ⟨_, named⟩

theorem Names.inside {exprs : Array Expr} {id : ExprId} {call : ExprCall}
    (named : call.Names exprs id) : id.index < exprs.size := by
  obtain ⟨expr, found⟩ := named.exists_node
  exact (Array.getElem?_eq_some_iff.mp found).choose

end ExprCall

namespace StmtCall

theorem Names.extend {before after : Arenas} {id : StmtId} {call : StmtCall}
    (named : call.Names before id) (extended : before.Extends after) : call.Names after id := by
  cases call with
  | throwsNew type =>
    obtain ⟨value, valueNamed, throwsNamed⟩ := named
    exact ⟨value, extended.keepsExpr valueNamed, extended.keepsStmt throwsNamed⟩
  | _ => exact extended.keepsStmt named

theorem Names.inside {arenas : Arenas} {id : StmtId} {call : StmtCall}
    (named : call.Names arenas id) : id.index < arenas.stmts.size := by
  have found : ∃ stmt, arenas.stmts[id.index]? = some stmt := by
    cases call with
    | throwsNew type =>
      obtain ⟨value, -, throwsNamed⟩ := named
      exact ⟨_, throwsNamed⟩
    | _ => exact ⟨_, named⟩
  exact (Array.getElem?_eq_some_iff.mp found.choose_spec).choose

end StmtCall

namespace Builder

/-- A node that is added is at a new place. -/
private theorem addExpr_adds {before : Arenas} (sound : before.Sound) (expr : Expr)
    (inside : ∀ child ∈ expr.children, child.index < before.exprs.size) :
    (addExpr expr).Yields before fun after id =>
      before.exprs.size ≤ id.index ∧ after.exprs[id.index]? = some expr := by
  have added := addExpr_yields sound expr inside
  exact ⟨added.extended, added.sound, Nat.le_refl _, by simp [addExpr]⟩

private theorem addStmt_adds {before : Arenas} (sound : before.Sound) (stmt : Stmt)
    (insideStmts : ∀ child ∈ stmt.childStmts, child.index < before.stmts.size)
    (insideExprs : ∀ child ∈ stmt.childExprs, child.index < before.exprs.size) :
    (addStmt stmt).Yields before fun after id =>
      before.stmts.size ≤ id.index ∧ after.stmts[id.index]? = some stmt := by
  have added := addStmt_yields sound stmt insideStmts insideExprs
  exact ⟨added.extended, added.sound, Nat.le_refl _, by simp [addStmt]⟩

end Builder

theorem ExprCall.run_yields (call : ExprCall) {before : Arenas} (sound : before.Sound)
    (inside : ∀ id ∈ call.exprIds, id.index < before.exprs.size) :
    call.run.Yields before fun after id =>
      before.exprs.size ≤ id.index ∧ call.Names after.exprs id := by
  cases call with
  | call callee arguments =>
    -- The name comes first, and what was there before the call is there before the second node.
    apply (Builder.addExpr_adds sound (.name callee nowhere) (List.forall_mem_nil _)).bind
    intro middle inner extended middleSound ⟨new, innerNamed⟩
    have innerInside := (Array.getElem?_eq_some_iff.mp innerNamed).choose
    have insideMiddle : ∀ id ∈ inner :: arguments, id.index < middle.exprs.size := by
      refine List.forall_mem_cons.mpr ⟨innerInside, fun id member => ?_⟩
      exact Nat.lt_of_lt_of_le (inside id member) extended.moreExprs
    have added := Builder.addExpr_adds middleSound (.call inner arguments nowhere) insideMiddle
    refine ⟨added.extended, added.sound, Nat.le_trans extended.moreExprs added.has.1, inner, ?_, ?_⟩
    · exact added.extended.keepsExpr innerNamed
    · exact added.has.2
  | bool value =>
    cases value <;> apply Builder.addExpr_adds sound <;> exact inside
  | _ =>
    apply Builder.addExpr_adds sound
    exact inside

theorem StmtCall.run_yields (call : StmtCall) {before : Arenas} (sound : before.Sound)
    (insideStmts : ∀ id ∈ call.stmtIds, id.index < before.stmts.size)
    (insideExprs : ∀ id ∈ call.exprIds, id.index < before.exprs.size) :
    call.run.Yields before fun after id =>
      before.stmts.size ≤ id.index ∧ call.Names after id := by
  cases call with
  | throwsNew type =>
    apply (Builder.addExpr_adds sound (.new type [] nowhere) (List.forall_mem_nil _)).bind
    -- The object is an expression, so the statements are as before when its throw is added.
    intro middle value extended middleSound ⟨new, valueNamed⟩
    have valueInside := (Array.getElem?_eq_some_iff.mp valueNamed).choose
    have added := Builder.addStmt_adds middleSound (.throws value nowhere) (List.forall_mem_nil _)
      (List.forall_mem_singleton.mpr valueInside)
    refine ⟨added.extended, added.sound, Nat.le_trans extended.moreStmts added.has.1, value, ?_, ?_⟩
    · exact added.extended.keepsExpr valueNamed
    · exact added.has.2
  | _ =>
    apply Builder.addStmt_adds sound
    · exact insideStmts
    · exact insideExprs

/-! ## What a history keeps -/

namespace History

/-- The arenas make sense, and every id names what its call added, each at a place of
its own. -/
structure Sound (history : History) : Prop where
  arenas : history.arenas.Sound
  exprs : ∀ made ∈ history.exprs, made.1.Names history.arenas.exprs made.2
  stmts : ∀ made ∈ history.stmts, made.1.Names history.arenas made.2
  exprsGrow : history.exprs.Pairwise (·.2.index < ·.2.index)
  stmtsGrow : history.stmts.Pairwise (·.2.index < ·.2.index)

theorem Sound.expr_inside {history : History} (sound : history.Sound) {id : ExprId}
    (known : history.KnowsExpr id) : id.index < history.arenas.exprs.size := by
  obtain ⟨made, member, rfl⟩ := List.mem_map.mp known
  exact (sound.exprs made member).inside

theorem Sound.stmt_inside {history : History} (sound : history.Sound) {id : StmtId}
    (known : history.KnowsStmt id) : id.index < history.arenas.stmts.size := by
  obtain ⟨made, member, rfl⟩ := List.mem_map.mp known
  exact (sound.stmts made member).inside

theorem start_sound : start.Sound where
  arenas := Arenas.empty_sound
  exprs := List.forall_mem_nil _
  stmts := List.forall_mem_nil _
  exprsGrow := .nil
  stmtsGrow := .nil

theorem step_sound {history : History} (sound : history.Sound) (call : Call)
    (allowed : history.Allows call) : (history.step call).Sound := by
  cases call with
  | expr call =>
    have made := call.run_yields sound.arenas fun id member => sound.expr_inside (allowed id member)
    constructor
    case arenas => exact made.sound
    case exprs =>
      refine List.forall_mem_append.mpr ⟨?_, ?_⟩
      · exact fun other member => (sound.exprs other member).extend made.extended
      · exact List.forall_mem_singleton.mpr made.has.2
    case stmts => exact fun other member => (sound.stmts other member).extend made.extended
    case exprsGrow =>
      -- The new place lies behind all places there were.
      apply List.pairwise_append.mpr
      refine ⟨sound.exprsGrow, List.pairwise_singleton _ _, fun other member last isLast => ?_⟩
      rw [List.mem_singleton.mp isLast]
      exact Nat.lt_of_lt_of_le (sound.exprs other member).inside made.has.1
    case stmtsGrow => exact sound.stmtsGrow
  | stmt call =>
    have made := call.run_yields sound.arenas
      (fun id member => sound.stmt_inside (allowed.1 id member))
      (fun id member => sound.expr_inside (allowed.2 id member))
    constructor
    case arenas => exact made.sound
    case exprs => exact fun other member => (sound.exprs other member).extend made.extended
    case stmts =>
      refine List.forall_mem_append.mpr ⟨?_, ?_⟩
      · exact fun other member => (sound.stmts other member).extend made.extended
      · exact List.forall_mem_singleton.mpr made.has.2
    case exprsGrow => exact sound.exprsGrow
    case stmtsGrow =>
      apply List.pairwise_append.mpr
      refine ⟨sound.stmtsGrow, List.pairwise_singleton _ _, fun other member last isLast => ?_⟩
      rw [List.mem_singleton.mp isLast]
      exact Nat.lt_of_lt_of_le (sound.stmts other member).inside made.has.1

theorem run_sound {history : History} (sound : history.Sound) (calls : List Call)
    (allowed : history.AllowsAll calls) : (history.run calls).Sound := by
  -- The calls go on from whatever was built before them.
  induction calls generalizing history with
  | nil => exact sound
  | cons call calls ih => exact ih (step_sound sound call allowed.1) allowed.2

end History

/-! ## The body -/

private theorem Arenas.finish_valid {arenas : Arenas} (sound : arenas.Sound) (root : StmtId)
    (inside : root.index < arenas.stmts.size) : (arenas.finish root).Valid where
  root_lt := inside
  stmt_lt := sound.stmts
  stmt_expr_lt := sound.inside
  expr_lt := sound.exprs

/-- An ending adds nothing or the root block. -/
theorem Ending.body_valid (ending : Ending) {arenas : Arenas} (sound : arenas.Sound)
    (inside : ∀ id ∈ ending.stmtIds, id.index < arenas.stmts.size) :
    (ending.body arenas).Valid ∧ ending.NamesRoot (ending.body arenas) ∧
      arenas.Extends ⟨(ending.body arenas).stmts, (ending.body arenas).exprs⟩ := by
  cases ending with
  | finish root =>
    have rootInside := inside root (List.mem_singleton_self _)
    exact ⟨Arenas.finish_valid sound root rootInside, rfl, .refl arenas⟩
  | blockBody statements =>
    have added := Builder.addStmt_adds sound (.block statements nowhere) inside
      (List.forall_mem_nil _)
    have rootInside := (Array.getElem?_eq_some_iff.mp added.has.2).choose
    exact ⟨Arenas.finish_valid added.sound _ rootInside, added.has.2, added.extended⟩

/-- Whatever calls are made with ids of earlier calls, and however they end, the body
passes its check, and in it every id names what its call added; no two calls share
a place. -/
theorem History.validate_body (calls : List Call) (ending : Ending)
    (allowed : start.AllowsAll calls)
    (known : ∀ id ∈ ending.stmtIds, (start.run calls).KnowsStmt id) :
    let history := start.run calls
    let body := ending.body history.arenas
    body.validate = .ok () ∧ ending.NamesRoot body ∧
      (∀ made ∈ history.exprs, made.1.Names body.exprs made.2) ∧
      (∀ made ∈ history.stmts, made.1.Names ⟨body.stmts, body.exprs⟩ made.2) ∧
      (history.exprs.map Prod.snd).Nodup ∧ (history.stmts.map Prod.snd).Nodup := by
  intro history body
  have sound : history.Sound := run_sound start_sound calls allowed
  obtain ⟨valid, namesRoot, extended⟩ := ending.body_valid sound.arenas
    fun id member => sound.stmt_inside (known id member)
  have exprsApart : (history.exprs.map Prod.snd).Nodup := by
    apply List.pairwise_map.mpr
    refine sound.exprsGrow.imp fun before same => ?_
    exact Nat.ne_of_lt before (congrArg ExprId.index same)
  have stmtsApart : (history.stmts.map Prod.snd).Nodup := by
    apply List.pairwise_map.mpr
    refine sound.stmtsGrow.imp fun before same => ?_
    exact Nat.ne_of_lt before (congrArg StmtId.index same)
  exact ⟨body.validate_of_valid valid, namesRoot,
    fun made member => (sound.exprs made member).extend extended,
    fun made member => (sound.stmts made member).extend extended, exprsApart, stmtsApart⟩

/-- A method that throws if its parameter is null and returns it otherwise. -/
def History.nullCheck : List Call :=
  [.expr (.name "x"), .expr .null, .expr (.binary .equal ⟨0⟩ ⟨1⟩),
    .stmt (.throwsNew "IllegalArgumentException"), .stmt (.ifElse ⟨2⟩ ⟨0⟩ none),
    .expr (.name "x"), .stmt (.returns (some ⟨4⟩))]

/-- The object that is thrown takes place three, which no call yields. -/
theorem History.validate_nullCheck :
    ((Ending.blockBody [⟨1⟩, ⟨2⟩]).body (start.run nullCheck).arenas).validate = .ok () ∧
      (start.run nullCheck).exprs.map Prod.snd = [⟨0⟩, ⟨1⟩, ⟨2⟩, ⟨4⟩] := by
  constructor
  · exact (validate_body nullCheck (.blockBody [⟨1⟩, ⟨2⟩]) (by decide) (by decide)).1
  · decide

end MethodContracts
