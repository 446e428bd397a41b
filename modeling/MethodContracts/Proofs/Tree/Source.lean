import Mathlib.Data.List.Forall2
import MethodContracts.Method.OfSource
import MethodContracts.Proofs.Body.Validity
import MethodContracts.Proofs.Tree.Allocation
import MethodContracts.Proofs.Tree.Size

/-!
# What a body keeps of its source

The body of a source block is a tree in two arenas: every place but the root has one
parent. Read from the root it is the block node for node, with the same words, types,
operators and spans; only a chain of one operator is a single node with all operands.
-/
namespace MethodContracts

namespace Source

/-- The operator as written, with a bar where the operand stands. -/
def UnaryOp.symbol : UnaryOp → String
  | .not => "!_"
  | .neg => "-_"
  | .plus => "+_"
  | .bitNot => "~_"
  | .preIncrement => "++_"
  | .preDecrement => "--_"
  | .postIncrement => "_++"
  | .postDecrement => "_--"

def BinaryOp.symbol : BinaryOp → String
  | .add => "+"
  | .sub => "-"
  | .mul => "*"
  | .div => "/"
  | .rem => "%"
  | .equal => "=="
  | .notEqual => "!="
  | .less => "<"
  | .greater => ">"
  | .lessEqual => "<="
  | .greaterEqual => ">="
  | .bitAnd => "&"
  | .bitOr => "|"
  | .bitXor => "^"
  | .andAnd => "&&"
  | .orOr => "||"

/-- The operands of a chain of one operator that nests to the left; any other
expression is an operand itself. -/
def Expr.spine (op : BinaryOp) : Expr → List Expr
  | .binary other first second span =>
    if other = op then spine op first ++ [second] else [.binary other first second span]
  | expr => [expr]

end Source

def UnaryOp.symbol : UnaryOp → String
  | .not => "!_"
  | .neg => "-_"
  | .plus => "+_"
  | .bitNot => "~_"
  | .preIncrement => "++_"
  | .preDecrement => "--_"
  | .postIncrement => "_++"
  | .postDecrement => "_--"

def BinaryOp.symbol : BinaryOp → String
  | .add => "+"
  | .sub => "-"
  | .mul => "*"
  | .div => "/"
  | .rem => "%"
  | .equal => "=="
  | .notEqual => "!="
  | .less => "<"
  | .greater => ">"
  | .lessEqual => "<="
  | .greaterEqual => ">="
  | .bitAnd => "&"
  | .bitOr => "|"
  | .bitXor => "^"
  | .and => "&&"
  | .or => "||"

namespace Tree

/-! ## Node for node -/

/-- The tree is the source expression node for node. A chain of one operator lists its
operands from left to right under the span of the whole. -/
inductive Expr.Mirrors : Source.Expr → Expr → Prop
  | name {word span} : Mirrors (.name word span) (.name word span)
  | number {text span} : Mirrors (.number text span) (.literal .int text span)
  | string {text span} : Mirrors (.string text span) (.literal .string text span)
  | char {text span} : Mirrors (.char text span) (.literal .char text span)
  | isTrue {span} : Mirrors (.bool true span) (.literal .isTrue "true" span)
  | isFalse {span} : Mirrors (.bool false span) (.literal .isFalse "false" span)
  | null {span} : Mirrors (.null span) (.literal .null "null" span)
  | this {span} : Mirrors (.this span) (.this span)
  | call {callee callee' arguments arguments' span} : Mirrors callee callee' →
    List.Forall₂ Mirrors arguments arguments' →
      Mirrors (.call callee arguments span) (.call callee' arguments' span)
  | field {receiver receiver' member memberSpan span} : Mirrors receiver receiver' →
    Mirrors (.field receiver member memberSpan span) (.field receiver' member span)
  | index {array array' position position' span} : Mirrors array array' →
    Mirrors position position' → Mirrors (.index array position span) (.index array' position' span)
  | new {type arguments arguments' span} : List.Forall₂ Mirrors arguments arguments' →
    Mirrors (.new type arguments span) (.new type.text arguments' span)
  | unary {op op' operand operand' span} : op'.symbol = op.symbol → Mirrors operand operand' →
    Mirrors (.unary op operand span) (.unary op' operand' span)
  | chain {op op' first second operands span} : op'.symbol = op.symbol →
    List.Forall₂ Mirrors (first.spine op ++ [second]) operands →
      Mirrors (.binary op first second span) (.chain op' operands span)
  | instanceOf {operand operand' type span} : Mirrors operand operand' →
    Mirrors (.instanceOf operand type span) (.instanceOf operand' type.text span)
  | conditional {condition condition' whenTrue whenTrue' whenFalse whenFalse' span} :
    Mirrors condition condition' → Mirrors whenTrue whenTrue' → Mirrors whenFalse whenFalse' →
      Mirrors (.conditional condition whenTrue whenFalse span)
        (.conditional condition' whenTrue' whenFalse' span)
  | assign {target target' value value' span} : Mirrors target target' → Mirrors value value' →
    Mirrors (.assign target value span) (.assign target' value' span)
  | paren {inner inner' span} : Mirrors inner inner' →
    Mirrors (.paren inner span) (.paren inner' span)
  | cast {type operand operand' span} : Mirrors operand operand' →
    Mirrors (.cast type operand span) (.cast type.text operand' span)
  | lambda {span} : Mirrors (.lambda span) (.lambda span)
  | methodRef {receiver receiver' member span} : Mirrors receiver receiver' →
    Mirrors (.methodRef receiver member span) (.methodRef receiver' member span)
  | missing {span} : Mirrors (.missing span) (.missing span)

/-- The tree is the source statement node for node. -/
inductive Stmt.Mirrors : Source.Stmt → Stmt → Prop
  | local {type name nameSpan init init' span} : Option.Rel Expr.Mirrors init init' →
    Mirrors (.local type name nameSpan init span) (.local name init' span)
  | expr {value value' span} : Expr.Mirrors value value' →
    Mirrors (.expr value span) (.expr value' span)
  | returns {value value' span} : Option.Rel Expr.Mirrors value value' →
    Mirrors (.returns value span) (.returns value' span)
  | throws {value value' span} : Expr.Mirrors value value' →
    Mirrors (.throws value span) (.throws value' span)
  | ifElse {condition condition' whenTrue whenTrue' whenFalse whenFalse' span} :
    Expr.Mirrors condition condition' → Mirrors whenTrue whenTrue' →
      Option.Rel Mirrors whenFalse whenFalse' →
        Mirrors (.ifElse condition whenTrue whenFalse span)
          (.ifElse condition' whenTrue' whenFalse' span)
  | assert {condition condition' message message' span} : Expr.Mirrors condition condition' →
    Option.Rel Expr.Mirrors message message' →
      Mirrors (.assert condition message span) (.assert condition' message' span)
  | while {condition condition' body body' span} : Expr.Mirrors condition condition' →
    Mirrors body body' → Mirrors (.while condition body span) (.while condition' body' span)
  | skipped {keyword span} : Mirrors (.skipped keyword span) (.skipped keyword span)
  | block {statements statements' span} : List.Forall₂ Mirrors statements statements' →
    Mirrors (.block statements span) (.block statements' span)
  | empty {span} : Mirrors (.empty span) (.empty span)

private theorem symbol_unaryOp (op : Source.UnaryOp) : (unaryOp op).symbol = op.symbol := by
  cases op <;> rfl

private theorem symbol_binaryOp (op : Source.BinaryOp) : (binaryOp op).symbol = op.symbol := by
  cases op <;> rfl

theorem binaryOp_inj {left right : Source.BinaryOp} :
    binaryOp left = binaryOp right ↔ left = right := by
  constructor
  · intro same
    cases left <;> cases right <;> first | rfl | cases same
  · intro same
    rw [same]

namespace Expr

/-- The tree mirrors the expression, and contributes the operands of the expression to a
chain of any operator. -/
structure MirrorsChain (source : Source.Expr) (tree : Expr) : Prop where
  whole : Mirrors source tree
  operands : ∀ op : Source.BinaryOp,
    List.Forall₂ Mirrors (source.spine op) (tree.operandsFor (binaryOp op))

/-- An expression that is no binary operator is one operand, before and after. -/
theorem Mirrors.alone {source : Source.Expr} {tree : Expr} (mirrors : Mirrors source tree)
    (single : ∀ op, source.spine op = [source]) (kept : ∀ op, tree.operandsFor op = [tree]) :
    MirrorsChain source tree where
  whole := mirrors
  operands op := by
    rw [single, kept]
    exact .cons mirrors .nil

theorem MirrorsChain.binary {op : Source.BinaryOp} {first second : Source.Expr} {span : Span}
    (left : MirrorsChain first (ofSource first)) (right : Mirrors second (ofSource second)) :
    MirrorsChain (.binary op first second span) (ofSource (.binary op first second span)) := by
  have operands : List.Forall₂ Mirrors (first.spine op ++ [second])
      ((ofSource first).operandsFor (binaryOp op) ++ [ofSource second]) :=
    List.rel_append (left.operands op) (.cons right .nil)
  have whole : Mirrors (.binary op first second span) (ofSource (.binary op first second span)) :=
    .chain (symbol_binaryOp op) operands
  refine ⟨whole, fun outer => ?_⟩
  have lowered : ofSource (.binary op first second span) = chain (binaryOp op)
      ((ofSource first).operandsFor (binaryOp op) ++ [ofSource second]) span := rfl
  rw [lowered] at whole ⊢
  -- A chain of the same operator is continued, and any other is one operand.
  by_cases same : op = outer
  · subst same
    simpa only [Source.Expr.spine, operandsFor, ite_true] using operands
  · have different : binaryOp op ≠ binaryOp outer := fun equal => same (binaryOp_inj.mp equal)
    simp only [Source.Expr.spine, operandsFor, same, different, ite_false]
    exact .cons whole .nil

mutual

theorem ofSource_mirrors (source : Source.Expr) : MirrorsChain source (ofSource source) := by
  cases source with
  | binary op first second span =>
    exact .binary (ofSource_mirrors first) (ofSource_mirrors second).whole
  | name word span => exact Mirrors.name.alone (fun _ => rfl) (fun _ => rfl)
  | number text span => exact Mirrors.number.alone (fun _ => rfl) (fun _ => rfl)
  | string text span => exact Mirrors.string.alone (fun _ => rfl) (fun _ => rfl)
  | char text span => exact Mirrors.char.alone (fun _ => rfl) (fun _ => rfl)
  | bool value span =>
    cases value with
    | true => exact Mirrors.isTrue.alone (fun _ => rfl) (fun _ => rfl)
    | false => exact Mirrors.isFalse.alone (fun _ => rfl) (fun _ => rfl)
  | null span => exact Mirrors.null.alone (fun _ => rfl) (fun _ => rfl)
  | this span => exact Mirrors.this.alone (fun _ => rfl) (fun _ => rfl)
  | lambda span => exact Mirrors.lambda.alone (fun _ => rfl) (fun _ => rfl)
  | missing span => exact Mirrors.missing.alone (fun _ => rfl) (fun _ => rfl)
  | call callee arguments span =>
    have mirrors : Mirrors (.call callee arguments span) (ofSource (.call callee arguments span)) :=
      .call (ofSource_mirrors callee).whole (ofSourceList_mirrors arguments)
    exact mirrors.alone (fun _ => rfl) (fun _ => rfl)
  | field receiver member memberSpan span =>
    exact (Mirrors.field (ofSource_mirrors receiver).whole).alone (fun _ => rfl) (fun _ => rfl)
  | index array position span =>
    have mirrors : Mirrors (.index array position span) (ofSource (.index array position span)) :=
      .index (ofSource_mirrors array).whole (ofSource_mirrors position).whole
    exact mirrors.alone (fun _ => rfl) (fun _ => rfl)
  | new type arguments span =>
    exact (Mirrors.new (ofSourceList_mirrors arguments)).alone (fun _ => rfl) (fun _ => rfl)
  | unary op operand span =>
    have mirrors : Mirrors (.unary op operand span) (ofSource (.unary op operand span)) :=
      .unary (symbol_unaryOp op) (ofSource_mirrors operand).whole
    exact mirrors.alone (fun _ => rfl) (fun _ => rfl)
  | instanceOf operand type span =>
    exact (Mirrors.instanceOf (ofSource_mirrors operand).whole).alone (fun _ => rfl) (fun _ => rfl)
  | conditional condition whenTrue whenFalse span =>
    have mirrors : Mirrors (.conditional condition whenTrue whenFalse span)
        (ofSource (.conditional condition whenTrue whenFalse span)) :=
      .conditional (ofSource_mirrors condition).whole (ofSource_mirrors whenTrue).whole
        (ofSource_mirrors whenFalse).whole
    exact mirrors.alone (fun _ => rfl) (fun _ => rfl)
  | assign target value span =>
    have mirrors : Mirrors (.assign target value span) (ofSource (.assign target value span)) :=
      .assign (ofSource_mirrors target).whole (ofSource_mirrors value).whole
    exact mirrors.alone (fun _ => rfl) (fun _ => rfl)
  | paren inner span =>
    exact (Mirrors.paren (ofSource_mirrors inner).whole).alone (fun _ => rfl) (fun _ => rfl)
  | cast type operand span =>
    exact (Mirrors.cast (ofSource_mirrors operand).whole).alone (fun _ => rfl) (fun _ => rfl)
  | methodRef receiver member span =>
    exact (Mirrors.methodRef (ofSource_mirrors receiver).whole).alone (fun _ => rfl) (fun _ => rfl)

theorem ofSourceList_mirrors (sources : List Source.Expr) :
    List.Forall₂ Mirrors sources (ofSourceWithList operandsFor sources) := by
  cases sources with
  | nil => exact .nil
  | cons source sources =>
    exact .cons (ofSource_mirrors source).whole (ofSourceList_mirrors sources)

end

private theorem ofSourceOption_mirrors (source : Option Source.Expr) :
    Option.Rel Mirrors source (source.map (ofSourceWith operandsFor)) := by
  cases source with
  | none => exact .none
  | some source => exact .some (ofSource_mirrors source).whole

end Expr

namespace Stmt

mutual

theorem ofSource_mirrors (source : Source.Stmt) : Mirrors source (ofSource source) := by
  cases source with
  | «local» type name nameSpan init span => exact .local (Expr.ofSourceOption_mirrors init)
  | expr value span => exact .expr (Expr.ofSource_mirrors value).whole
  | returns value span => exact .returns (Expr.ofSourceOption_mirrors value)
  | throws value span => exact .throws (Expr.ofSource_mirrors value).whole
  | ifElse condition whenTrue whenFalse span =>
    have decides := (Expr.ofSource_mirrors condition).whole
    cases whenFalse with
    | none => exact .ifElse decides (ofSource_mirrors whenTrue) .none
    | some whenFalse =>
      exact .ifElse decides (ofSource_mirrors whenTrue) (.some (ofSource_mirrors whenFalse))
  | assert condition message span =>
    exact .assert (Expr.ofSource_mirrors condition).whole (Expr.ofSourceOption_mirrors message)
  | «while» condition body span =>
    exact .while (Expr.ofSource_mirrors condition).whole (ofSource_mirrors body)
  | skipped keyword span => exact .skipped
  | block statements span => exact .block (ofSourceList_mirrors statements)
  | empty span => exact .empty

theorem ofSourceList_mirrors (sources : List Source.Stmt) :
    List.Forall₂ Mirrors sources (ofSourceWithList Expr.operandsFor sources) := by
  cases sources with
  | nil => exact .nil
  | cons source sources => exact .cons (ofSource_mirrors source) (ofSourceList_mirrors sources)

end

/-- The root of what is added is the last statement. -/
theorem allocate_last (tree : Stmt) (before : Arenas) :
    (tree.allocate before).1.index + 1 = (tree.allocate before).2.stmts.size := by
  have last (stmt : MethodContracts.Stmt) (arenas : Arenas) :
      (Builder.addStmt stmt arenas).1.index + 1 = (Builder.addStmt stmt arenas).2.stmts.size := by
    simp only [Builder.addStmt, Array.size_push]
  cases tree <;> exact last _ _

end Stmt

end Tree

namespace Body

/-- All references of a body to expressions. -/
def exprRefs (body : Body) : List ExprId := Arenas.exprRefs ⟨body.stmts, body.exprs⟩

/-- All references of a body to statements. -/
def stmtRefs (body : Body) : List StmtId := Arenas.stmtRefs ⟨body.stmts, body.exprs⟩

/-- The body of a block is accepted. Its root is the last statement; every statement
before that, and every expression, has one parent. Read from the root, it is the block
node for node, in no more nodes than the block has. -/
theorem ofSource_faithful (block : Source.Block) :
    (ofSource block).validate = .ok () ∧
      (ofSource block).root.index + 1 = (ofSource block).stmts.size ∧
      (∀ id : StmtId, (ofSource block).stmtRefs.count id =
        if id.index < (ofSource block).root.index then 1 else 0) ∧
      (∀ id : ExprId, (ofSource block).exprRefs.count id =
        if id.index < (ofSource block).exprs.size then 1 else 0) ∧
      Tree.Stmt.Mirrors block.toStmt (ofSource block).tree ∧
      (ofSource block).stmts.size + (ofSource block).exprs.size ≤ block.toStmt.nodes := by
  obtain ⟨valid, reads⟩ := (Tree.Stmt.ofSource block.toStmt).toBody_valid
  have last : (ofSource block).root.index + 1 = (ofSource block).stmts.size :=
    Tree.Stmt.allocate_last (Tree.Stmt.ofSource block.toStmt) Arenas.empty
  have owned := (Tree.Stmt.ofSource block.toStmt).allocate_owned _ _ _ Arenas.Owned.empty
  refine ⟨validate_of_valid _ valid, last, fun id => ?_, fun id => ?_, ?_, ?_⟩
  · -- The root alone waits for a parent.
    have counted : ((ofSource block).stmtRefs ++ [(ofSource block).root]).count id =
        if id.index < (ofSource block).stmts.size then 1 else 0 := owned.stmt id
    rw [List.count_append, List.count_singleton, ← last] at counted
    by_cases same : (ofSource block).root = id
    · subst same
      simpa using counted
    · have different : (ofSource block).root.index ≠ id.index := fun equal =>
        same (congrArg StmtId.mk equal)
      have bound : id.index < (ofSource block).root.index + 1 ↔
          id.index < (ofSource block).root.index := by omega
      simpa [same, bound] using counted
  · have counted : ((ofSource block).exprRefs ++ []).count id =
        if id.index < (ofSource block).exprs.size then 1 else 0 := owned.expr id
    rwa [List.append_nil] at counted
  · have mirrors := Tree.Stmt.ofSource_mirrors block.toStmt
    rwa [← reads] at mirrors
  · have grown : (ofSource block).stmts.size + (ofSource block).exprs.size ≤
        0 + block.toStmt.nodes := Tree.Stmt.ofSource_grows block.toStmt Arenas.empty
    rwa [Nat.zero_add] at grown

end Body
end MethodContracts
