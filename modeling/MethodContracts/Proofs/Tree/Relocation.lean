import MethodContracts.Method.OfSource
import MethodContracts.Proofs.Source.Relocation
import MethodContracts.Proofs.Tree.Spans

/-!
# Methods at other places

A function on places moves the spans of a source tree. Lowering commutes with it: the methods
of a tree that is moved are the methods of the tree, moved, node by node in their arenas.
-/
namespace MethodContracts

variable (move : Nat → Nat)

def Expr.moved : Expr → Expr
  | .name word span => .name word (span.moved move)
  | .literal kind text span => .literal kind text (span.moved move)
  | .this span => .this (span.moved move)
  | .field receiver member span => .field receiver member (span.moved move)
  | .index array position span => .index array position (span.moved move)
  | .call callee arguments span => .call callee arguments (span.moved move)
  | .new type arguments span => .new type arguments (span.moved move)
  | .unary op operand span => .unary op operand (span.moved move)
  | .chain op operands span => .chain op operands (span.moved move)
  | .instanceOf operand type span => .instanceOf operand type (span.moved move)
  | .conditional condition whenTrue whenFalse span =>
    .conditional condition whenTrue whenFalse (span.moved move)
  | .paren inner span => .paren inner (span.moved move)
  | .assign target value span => .assign target value (span.moved move)
  | .cast type operand span => .cast type operand (span.moved move)
  | .lambda span => .lambda (span.moved move)
  | .methodRef receiver member span => .methodRef receiver member (span.moved move)
  | .missing span => .missing (span.moved move)

def Stmt.moved : Stmt → Stmt
  | .block statements span => .block statements (span.moved move)
  | .ifElse condition whenTrue whenFalse span =>
    .ifElse condition whenTrue whenFalse (span.moved move)
  | .throws value span => .throws value (span.moved move)
  | .returns value span => .returns value (span.moved move)
  | .assert condition message span => .assert condition message (span.moved move)
  | .while condition body span => .while condition body (span.moved move)
  | .local name init span => .local name init (span.moved move)
  | .expr value span => .expr value (span.moved move)
  | .skipped keyword span => .skipped keyword (span.moved move)
  | .empty span => .empty (span.moved move)

def Arenas.moved (arenas : Arenas) : Arenas :=
  ⟨arenas.stmts.map (Stmt.moved move), arenas.exprs.map (Expr.moved move)⟩

def Body.moved (body : Body) : Body :=
  ⟨body.root, body.stmts.map (Stmt.moved move), body.exprs.map (Expr.moved move)⟩

def MethodAnnotation.moved (note : MethodAnnotation) : MethodAnnotation :=
  { note with span := note.span.moved move }

def Method.moved (method : Method) : Method where
  name := method.name
  owner := method.owner
  params := method.params
  annotations := method.annotations.map (·.moved move)
  body := method.body.map (Body.moved move)
  span := method.span.moved move

namespace Tree

mutual

def Expr.moved : Expr → Expr
  | .name word span => .name word (span.moved move)
  | .literal kind text span => .literal kind text (span.moved move)
  | .this span => .this (span.moved move)
  | .field receiver member span => .field receiver.moved member (span.moved move)
  | .index array position span => .index array.moved position.moved (span.moved move)
  | .call callee arguments span => .call callee.moved (movedAll arguments) (span.moved move)
  | .new type arguments span => .new type (movedAll arguments) (span.moved move)
  | .unary op operand span => .unary op operand.moved (span.moved move)
  | .chain op operands span => .chain op (movedAll operands) (span.moved move)
  | .instanceOf operand type span => .instanceOf operand.moved type (span.moved move)
  | .conditional condition whenTrue whenFalse span =>
    .conditional condition.moved whenTrue.moved whenFalse.moved (span.moved move)
  | .paren inner span => .paren inner.moved (span.moved move)
  | .assign target value span => .assign target.moved value.moved (span.moved move)
  | .cast type operand span => .cast type operand.moved (span.moved move)
  | .lambda span => .lambda (span.moved move)
  | .methodRef receiver member span => .methodRef receiver.moved member (span.moved move)
  | .missing span => .missing (span.moved move)

def Expr.movedAll : List Expr → List Expr
  | [] => []
  | expr :: exprs => expr.moved :: movedAll exprs

end

mutual

def Stmt.moved : Stmt → Stmt
  | .block statements span => .block (movedAll statements) (span.moved move)
  | .ifElse condition whenTrue whenFalse span =>
    .ifElse (condition.moved move) whenTrue.moved (movedOption whenFalse) (span.moved move)
  | .throws value span => .throws (value.moved move) (span.moved move)
  | .returns value span => .returns (value.map (Expr.moved move)) (span.moved move)
  | .assert condition message span =>
    .assert (condition.moved move) (message.map (Expr.moved move)) (span.moved move)
  | .while condition body span => .while (condition.moved move) body.moved (span.moved move)
  | .local name init span => .local name (init.map (Expr.moved move)) (span.moved move)
  | .expr value span => .expr (value.moved move) (span.moved move)
  | .skipped keyword span => .skipped keyword (span.moved move)
  | .empty span => .empty (span.moved move)

def Stmt.movedOption : Option Stmt → Option Stmt
  | none => none
  | some statement => some statement.moved

def Stmt.movedAll : List Stmt → List Stmt
  | [] => []
  | statement :: statements => statement.moved :: movedAll statements

end

private theorem Expr.movedAll_eq (exprs : List Expr) :
    movedAll move exprs = exprs.map (moved move) := by
  induction exprs with
  | nil => rfl
  | cons expr exprs ih => rw [movedAll, ih, List.map_cons]

/-! ## Trees of source -/

private theorem Expr.operandsFor_moved (op : BinaryOp) (expr : Expr) :
    operandsFor op (expr.moved move) = (operandsFor op expr).map (moved move) := by
  cases expr with
  | chain other operands span =>
    rw [moved, operandsFor, operandsFor]
    split
    · exact movedAll_eq move operands
    · rw [List.map_singleton, moved]
  | _ => rfl

mutual

theorem Expr.ofSource_moved : (expr : Source.Expr) →
    ofSource (expr.moved move) = (ofSource expr).moved move
  | .name .. | .number .. | .string .. | .char .. | .null _ | .this _ | .lambda _
  | .missing _ | .bool true _ | .bool false _ => rfl
  | .field inner .. | .unary _ inner _ | .instanceOf inner .. | .paren inner _
  | .cast _ inner _ | .methodRef inner .. => by
    have same := ofSource_moved inner
    rw [ofSource] at same ⊢
    simp only [Source.Expr.moved, ofSourceWith, moved, same, Source.TypeRef.moved]
  | .index first second _ | .assign first second _ => by
    have same := ofSource_moved first
    have same' := ofSource_moved second
    rw [ofSource] at same same' ⊢
    simp only [Source.Expr.moved, ofSourceWith, moved, same, same']
  | .conditional first second third _ => by
    have same := ofSource_moved first
    have same' := ofSource_moved second
    have same'' := ofSource_moved third
    rw [ofSource] at same same' same'' ⊢
    simp only [Source.Expr.moved, ofSourceWith, moved, same, same', same'']
  | .call callee arguments _ => by
    have same := ofSource_moved callee
    rw [ofSource] at same ⊢
    simp only [Source.Expr.moved, ofSourceWith, moved, same, ofSourceAll_moved arguments]
  | .new _ arguments _ => by
    simp only [Source.Expr.moved, ofSource, ofSourceWith, moved, ofSourceAll_moved arguments,
      Source.TypeRef.moved]
  -- The operands that a chain takes over are moved with the rest.
  | .binary op first second _ => by
    have same := ofSource_moved first
    have same' := ofSource_moved second
    rw [ofSource] at same same' ⊢
    simp only [Source.Expr.moved, ofSourceWith, moved, same, same', movedAll_eq,
      operandsFor_moved, List.map_append, List.map_singleton]

theorem Expr.ofSourceAll_moved : (exprs : List Source.Expr) →
    ofSourceWithList operandsFor (Source.Expr.movedAll move exprs) =
      movedAll move (ofSourceWithList operandsFor exprs)
  | [] => rfl
  | expr :: exprs => by
    have same := ofSource_moved expr
    rw [ofSource] at same
    simp only [Source.Expr.movedAll, ofSourceWithList, movedAll, same, ofSourceAll_moved exprs]

end

theorem Expr.ofSourceOption_moved (value : Option Source.Expr) :
    (value.map (Source.Expr.moved move)).map ofSource =
      (value.map ofSource).map (moved move) := by
  cases value with
  | none => rfl
  | some value => exact congrArg some (ofSource_moved move value)

mutual

theorem Stmt.ofSource_moved : (statement : Source.Stmt) →
    ofSource (statement.moved move) = (ofSource statement).moved move
  | .empty _ | .skipped .. => rfl
  | .local _ _ _ value _ | .returns value _ => by
    have same := Expr.ofSourceOption_moved move value
    simp only [Expr.ofSource] at same
    simp only [Source.Stmt.moved, ofSource, ofSourceWith, moved, same]
  | .expr value _ | .throws value _ => by
    have same := Expr.ofSource_moved move value
    simp only [Expr.ofSource] at same
    simp only [Source.Stmt.moved, ofSource, ofSourceWith, moved, same]
  | .assert condition message _ => by
    have same := Expr.ofSource_moved move condition
    have same' := Expr.ofSourceOption_moved move message
    simp only [Expr.ofSource] at same same'
    simp only [Source.Stmt.moved, ofSource, ofSourceWith, moved, same, same']
  | .while condition body _ => by
    have same := Expr.ofSource_moved move condition
    have same' := ofSource_moved body
    simp only [Expr.ofSource, ofSource] at same same' ⊢
    simp only [Source.Stmt.moved, ofSourceWith, moved, same, same']
  | .ifElse condition whenTrue whenFalse _ => by
    have same := Expr.ofSource_moved move condition
    have same' := ofSource_moved whenTrue
    have same'' := ofSourceOption_moved whenFalse
    simp only [Expr.ofSource, ofSource] at same same' ⊢
    simp only [Source.Stmt.moved, ofSourceWith, moved, same, same', same'']
  | .block statements _ => by
    simp only [Source.Stmt.moved, ofSource, ofSourceWith, moved, ofSourceAll_moved statements]

theorem Stmt.ofSourceOption_moved : (statement : Option Source.Stmt) →
    ofSourceWithOption Expr.operandsFor (Source.Stmt.movedOption move statement) =
      movedOption move (ofSourceWithOption Expr.operandsFor statement)
  | none => rfl
  | some statement => by
    have same := ofSource_moved statement
    simp only [ofSource] at same
    simp only [Source.Stmt.movedOption, ofSourceWithOption, movedOption, same]

theorem Stmt.ofSourceAll_moved : (statements : List Source.Stmt) →
    ofSourceWithList Expr.operandsFor (Source.Stmt.movedAll move statements) =
      movedAll move (ofSourceWithList Expr.operandsFor statements)
  | [] => rfl
  | statement :: statements => by
    have same := ofSource_moved statement
    simp only [ofSource] at same
    simp only [Source.Stmt.movedAll, ofSourceWithList, movedAll, same,
      ofSourceAll_moved statements]

end

/-! ## Trees without spans -/

mutual

theorem Expr.withoutSpans_moved : (expr : Expr) →
    (expr.moved move).withoutSpans = expr.withoutSpans
  | .name .. | .literal .. | .this _ | .lambda _ | .missing _ => rfl
  | .field inner .. | .unary _ inner _ | .instanceOf inner .. | .paren inner _
  | .cast _ inner _ | .methodRef inner .. => by
    simp only [moved, withoutSpans, withoutSpans_moved inner]
  | .index first second _ | .assign first second _ => by
    simp only [moved, withoutSpans, withoutSpans_moved first, withoutSpans_moved second]
  | .conditional first second third _ => by
    simp only [moved, withoutSpans, withoutSpans_moved first, withoutSpans_moved second,
      withoutSpans_moved third]
  | .call callee arguments _ => by
    simp only [moved, withoutSpans, withoutSpans_moved callee, allWithoutSpans_moved arguments]
  | .new _ operands _ | .chain _ operands _ => by
    simp only [moved, withoutSpans, allWithoutSpans_moved operands]

theorem Expr.allWithoutSpans_moved : (exprs : List Expr) →
    allWithoutSpans (movedAll move exprs) = allWithoutSpans exprs
  | [] => rfl
  | expr :: exprs => by
    simp only [movedAll, allWithoutSpans, withoutSpans_moved expr, allWithoutSpans_moved exprs]

end

theorem Expr.optionWithoutSpans_moved (value : Option Expr) :
    (value.map (moved move)).map withoutSpans = value.map withoutSpans := by
  cases value with
  | none => rfl
  | some value => exact congrArg some (withoutSpans_moved move value)

mutual

theorem Stmt.withoutSpans_moved : (statement : Stmt) →
    (statement.moved move).withoutSpans = statement.withoutSpans
  | .empty _ | .skipped .. => rfl
  | .local _ value _ | .returns value _ => by
    simp only [moved, withoutSpans, Expr.optionWithoutSpans_moved]
  | .expr value _ | .throws value _ => by
    simp only [moved, withoutSpans, Expr.withoutSpans_moved]
  | .assert condition message _ => by
    simp only [moved, withoutSpans, Expr.withoutSpans_moved, Expr.optionWithoutSpans_moved]
  | .while condition body _ => by
    simp only [moved, withoutSpans, Expr.withoutSpans_moved, withoutSpans_moved body]
  | .ifElse condition whenTrue whenFalse _ => by
    simp only [moved, withoutSpans, Expr.withoutSpans_moved, withoutSpans_moved whenTrue,
      optionWithoutSpans_moved whenFalse]
  | .block statements _ => by
    simp only [moved, withoutSpans, allWithoutSpans_moved statements]

theorem Stmt.optionWithoutSpans_moved : (statement : Option Stmt) →
    optionWithoutSpans (movedOption move statement) = optionWithoutSpans statement
  | none => rfl
  | some statement => by
    simp only [movedOption, optionWithoutSpans, withoutSpans_moved statement]

theorem Stmt.allWithoutSpans_moved : (statements : List Stmt) →
    allWithoutSpans (movedAll move statements) = allWithoutSpans statements
  | [] => rfl
  | statement :: statements => by
    simp only [movedAll, allWithoutSpans, withoutSpans_moved statement,
      allWithoutSpans_moved statements]

end

end Tree

/-! ## Allocation -/

/-- From arenas that are moved the second builder adds what the first one adds, moved. -/
def Builder.Translates {α : Type} (builder builder' : Builder α) : Prop :=
  ∀ arenas, builder' (arenas.moved move) = ((builder arenas).1, (builder arenas).2.moved move)

namespace Builder.Translates

variable {move}

theorem pure {α : Type} (value : α) : Translates move (Pure.pure value) (Pure.pure value) :=
  fun _ => rfl

theorem bind {α β : Type} {builder builder' : Builder α} {next next' : α → Builder β}
    (first : Translates move builder builder')
    (rest : ∀ value, Translates move (next value) (next' value)) :
    Translates move (builder >>= next) (builder' >>= next') := by
  intro arenas
  change next' (builder' (arenas.moved move)).1 (builder' (arenas.moved move)).2 = _
  rw [first arenas]
  exact rest _ _

theorem addExpr (expr : Expr) : Translates move (Builder.addExpr expr)
    (Builder.addExpr (expr.moved move)) := fun arenas => by
  simp only [Builder.addExpr, Arenas.moved, Array.size_map, Array.map_push]

theorem addStmt (stmt : Stmt) : Translates move (Builder.addStmt stmt)
    (Builder.addStmt (stmt.moved move)) := fun arenas => by
  simp only [Builder.addStmt, Arenas.moved, Array.size_map, Array.map_push]

end Builder.Translates

namespace Tree

open Builder (Translates)

mutual

theorem Expr.allocate_moved : (expr : Expr) →
    Translates move expr.allocate (expr.moved move).allocate
  | .name .. | .literal .. | .this _ | .lambda _ | .missing _ => .addExpr _
  | .field inner .. | .unary _ inner _ | .instanceOf inner .. | .paren inner _
  | .cast _ inner _ | .methodRef inner .. => by
    rw [moved, allocate, allocate]
    exact (allocate_moved inner).bind fun _ => .addExpr _
  | .index first second _ | .assign first second _ => by
    rw [moved, allocate, allocate]
    exact (allocate_moved first).bind fun _ => (allocate_moved second).bind fun _ => .addExpr _
  | .conditional first second third _ => by
    rw [moved, allocate, allocate]
    exact (allocate_moved first).bind fun _ => (allocate_moved second).bind fun _ =>
      (allocate_moved third).bind fun _ => .addExpr _
  | .call callee arguments _ => by
    rw [moved, allocate, allocate]
    exact (allocate_moved callee).bind fun _ => (allocateAll_moved arguments).bind fun _ =>
      .addExpr _
  | .new _ operands _ | .chain _ operands _ => by
    rw [moved, allocate, allocate]
    exact (allocateAll_moved operands).bind fun _ => .addExpr _

theorem Expr.allocateAll_moved : (exprs : List Expr) →
    Translates move (allocateList exprs) (allocateList (movedAll move exprs))
  | [] => .pure _
  | expr :: exprs => by
    rw [movedAll, allocateList, allocateList]
    exact (allocate_moved expr).bind fun _ => (allocateAll_moved exprs).bind fun _ => .pure _

end

theorem Expr.allocateOption_moved (value : Option Expr) :
    Translates move (allocateOption value) (allocateOption (value.map (moved move))) := by
  cases value with
  | none => exact .pure _
  | some value => exact (allocate_moved move value).bind fun _ => .pure _

mutual

theorem Stmt.allocate_moved : (statement : Stmt) →
    Translates move statement.allocate (statement.moved move).allocate
  | .empty _ | .skipped .. => .addStmt _
  | .local _ value _ | .returns value _ => by
    rw [moved, allocate, allocate]
    exact (Expr.allocateOption_moved move value).bind fun _ => .addStmt _
  | .expr value _ | .throws value _ => by
    rw [moved, allocate, allocate]
    exact (Expr.allocate_moved move value).bind fun _ => .addStmt _
  | .assert condition message _ => by
    rw [moved, allocate, allocate]
    exact (Expr.allocate_moved move condition).bind fun _ =>
      (Expr.allocateOption_moved move message).bind fun _ => .addStmt _
  | .while condition body _ => by
    rw [moved, allocate, allocate]
    exact (Expr.allocate_moved move condition).bind fun _ => (allocate_moved body).bind fun _ =>
      .addStmt _
  | .ifElse condition whenTrue whenFalse _ => by
    rw [moved, allocate, allocate]
    exact (Expr.allocate_moved move condition).bind fun _ => (allocate_moved whenTrue).bind fun _ =>
      (allocateOption_moved whenFalse).bind fun _ => .addStmt _
  | .block statements _ => by
    rw [moved, allocate, allocate]
    exact (allocateAll_moved statements).bind fun _ => .addStmt _

theorem Stmt.allocateOption_moved : (statement : Option Stmt) →
    Translates move (allocateOption statement) (allocateOption (movedOption move statement))
  | none => .pure _
  | some statement => by
    rw [movedOption, allocateOption, allocateOption]
    exact (allocate_moved statement).bind fun _ => .pure _

theorem Stmt.allocateAll_moved : (statements : List Stmt) →
    Translates move (allocateList statements) (allocateList (movedAll move statements))
  | [] => .pure _
  | statement :: statements => by
    rw [movedAll, allocateList, allocateList]
    exact (allocate_moved statement).bind fun _ => (allocateAll_moved statements).bind fun _ =>
      .pure _

end

private theorem Stmt.toBody_moved (statement : Stmt) :
    (statement.moved move).toBody = statement.toBody.moved move := by
  have same := statement.allocate_moved move .empty
  have nothing : Arenas.moved move .empty = .empty := by simp [Arenas.moved, Arenas.empty]
  rw [nothing] at same
  rw [toBody, toBody, Builder.toBody, Builder.toBody, same]
  rfl

end Tree

theorem Body.ofSource_moved (block : Source.Block) :
    ofSource (block.moved move) = (ofSource block).moved move := by
  rw [ofSource, ofSource, Source.Block.toStmt_moved, Tree.Stmt.ofSource_moved,
    Tree.Stmt.toBody_moved]

/-! ## Methods -/

namespace Method

theorem ofSource_moved (decl : Source.MethodDecl) (owner : Option String) :
    ofSource (decl.moved move) owner = (ofSource decl owner).moved move := by
  have notes : decl.annotations.map (fun note =>
      MethodAnnotation.mk note.name ((note.moved move).stringValue? "value")
        (note.span.moved move)) =
      decl.annotations.map (fun note =>
        MethodAnnotation.mk note.name (note.stringValue? "value") (note.span.moved move)) := by
    simp only [Source.Annotation.stringValue?_moved]
  have bodies : decl.body.map (fun block => Body.ofSource (block.moved move)) =
      decl.body.map (fun block => (Body.ofSource block).moved move) := by
    simp only [Body.ofSource_moved]
  simp only [ofSource, moved, Source.MethodDecl.moved, List.map_map, Option.map_map]
  exact congrArg₂ (fun notes body => Method.mk _ _ _ notes body _) notes bodies

mutual

theorem ofMember_moved (owner : String) : (member : Source.Member) →
    ofMember owner (member.moved move) = (ofMember owner member).map (moved move)
  | .field _ | .constructor _ | .initializer _ => rfl
  | .method decl => congrArg ([·]) (ofSource_moved move decl (some owner))
  | .type header members => by
    rw [Source.Member.moved, ofMember, ofMember]
    exact ofMembers_moved _ members

theorem ofMembers_moved (owner : String) : (members : List Source.Member) →
    ofMembers owner (Source.Member.movedAll move members) =
      (ofMembers owner members).map (moved move)
  | [] => rfl
  | member :: members => by
    rw [Source.Member.movedAll, ofMembers, ofMembers, ofMember_moved owner member,
      ofMembers_moved owner members, List.map_append]

end

theorem ofUnit_moved (unit : Source.CompilationUnit) :
    ofUnit (unit.moved move) = (ofUnit unit).map (moved move) := by
  rw [ofUnit, ofUnit, Source.CompilationUnit.moved, List.flatMap_map, List.map_flatMap]
  refine congrArg unit.types.flatMap (funext fun decl => ?_)
  rw [Source.TypeDecl.moved, ← Source.Member.movedAll_eq]
  exact ofMembers_moved move _ decl.members

end Method
end MethodContracts
