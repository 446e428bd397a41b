import MethodContracts.Source.Tree

/-!
# Outlines of source trees

An outline keeps of every node where it stands, which names and texts it carries and
which parts it has, in source order. What kind of node it is it forgets, so what is
said of all nodes of a tree is said once.
-/
namespace MethodContracts.Source

inductive Outline where
  | node (words : List String) (span : Span) (parts : List Outline)
  /-- Stands for an expression that was expected. -/
  | hole (span : Span)

namespace Outline

def span : Outline → Span
  | .node _ span _ | .hole span => span

def parts : Outline → List Outline
  | .node _ _ parts => parts
  | .hole _ => []

/-- A word by itself. -/
def leaf (word : String) (span : Span) : Outline := .node [word] span []

/-- All nodes of the outline have the property. -/
inductive Every (holds : Outline → Prop) : Outline → Prop where
  | intro {outline : Outline} (self : holds outline)
    (parts : ∀ part ∈ outline.parts, Every holds part) : Every holds outline

/-- The parts stand inside the node, one behind the other. -/
structure Nested (outline : Outline) : Prop where
  inside : ∀ part ∈ outline.parts,
    outline.span.start ≤ part.span.start ∧ part.span.stop ≤ outline.span.stop
  ordered : outline.parts.Pairwise fun first second => first.span.stop ≤ second.span.start

/-- Nothing is missing at the node. -/
def Filled : Outline → Prop
  | .node words _ _ => ∀ word ∈ words, word ≠ ""
  | .hole _ => False

variable {holds : Outline → Prop} {outline : Outline}

theorem Every.self (every : outline.Every holds) : holds outline := by
  cases every
  assumption

theorem Every.of_mem {part : Outline} (every : outline.Every holds)
    (member : part ∈ outline.parts) : part.Every holds := by
  cases every with
  | intro _ parts => exact parts part member

theorem Every.mono {other : Outline → Prop} (every : outline.Every holds)
    (implies : ∀ node, holds node → other node) : outline.Every other := by
  induction every with
  | intro self _ ih => exact .intro (implies _ self) ih

end Outline

def TypeRef.outline (type : TypeRef) : Outline := .leaf type.text type.span

mutual

def Expr.outline : Expr → Outline
  | .name text span | .number text span | .string text span | .char text span => .leaf text span
  | .bool _ span | .null span | .this span | .lambda span => .node [] span []
  | .call callee arguments span => .node [] span (callee.outline :: outlineAll arguments)
  | .field receiver member nameSpan span =>
    .node [] span [receiver.outline, .leaf member nameSpan]
  | .index array position span => .node [] span [array.outline, position.outline]
  | .new type arguments span => .node [] span (type.outline :: outlineAll arguments)
  | .unary _ operand span => .node [] span [operand.outline]
  | .binary _ left right span => .node [] span [left.outline, right.outline]
  | .instanceOf operand type span => .node [] span [operand.outline, type.outline]
  | .conditional condition whenTrue whenFalse span =>
    .node [] span [condition.outline, whenTrue.outline, whenFalse.outline]
  | .assign target value span => .node [] span [target.outline, value.outline]
  | .paren inner span => .node [] span [inner.outline]
  | .cast type operand span => .node [] span [type.outline, operand.outline]
  | .methodRef receiver member span => .node [member] span [receiver.outline]
  | .missing span => .hole span

def Expr.outlineAll : List Expr → List Outline
  | [] => []
  | expr :: exprs => expr.outline :: outlineAll exprs

end

theorem Expr.outlineAll_eq (exprs : List Expr) : outlineAll exprs = exprs.map outline := by
  induction exprs with
  | nil => rfl
  | cons expr exprs ih => rw [outlineAll, ih, List.map_cons]

theorem Expr.span_outline (expr : Expr) : expr.outline.span = expr.span := by
  cases expr <;> rw [outline] <;> rfl

/-- The parts that an expression contributes which may be absent. -/
def Expr.outlineOption (expr : Option Expr) : List Outline := expr.toList.map outline

mutual

def Stmt.outline : Stmt → Outline
  | .local type name nameSpan init span =>
    .node [] span (type.outline :: .leaf name nameSpan :: Expr.outlineOption init)
  | .expr value span | .throws value span => .node [] span [value.outline]
  | .returns value span => .node [] span (Expr.outlineOption value)
  | .ifElse condition whenTrue whenFalse span =>
    .node [] span (condition.outline :: whenTrue.outline :: outlineOption whenFalse)
  | .assert condition message span =>
    .node [] span (condition.outline :: Expr.outlineOption message)
  | .while condition body span => .node [] span [condition.outline, body.outline]
  | .skipped keyword span => .leaf keyword span
  | .block statements span => .node [] span (outlineAll statements)
  | .empty span => .node [] span []

def Stmt.outlineOption : Option Stmt → List Outline
  | none => []
  | some statement => [statement.outline]

def Stmt.outlineAll : List Stmt → List Outline
  | [] => []
  | statement :: statements => statement.outline :: outlineAll statements

end

theorem Stmt.outlineAll_eq (statements : List Stmt) :
    outlineAll statements = statements.map outline := by
  induction statements with
  | nil => rfl
  | cons statement statements ih => rw [outlineAll, ih, List.map_cons]

def Block.outline (block : Block) : Outline := block.toStmt.outline

def AnnotationArgument.outline (argument : AnnotationArgument) : Outline :=
  .node argument.name.toList argument.span []

def Annotation.outline (note : Annotation) : Outline :=
  .node [note.name] note.span (note.arguments.map AnnotationArgument.outline)

def ParamDecl.outline (param : ParamDecl) : Outline :=
  .node [] param.span [param.type.outline, .leaf param.name param.nameSpan]

def FieldDecl.outline (decl : FieldDecl) : Outline :=
  .node [] decl.span [decl.type.outline, .leaf decl.name decl.nameSpan]

def MethodDecl.outline (decl : MethodDecl) : Outline :=
  .node [] decl.span (decl.annotations.map Annotation.outline ++
    (decl.returnType.outline :: .leaf decl.name decl.nameSpan ::
      decl.params.map ParamDecl.outline) ++ decl.body.toList.map Block.outline)

def ConstructorDecl.outline (decl : ConstructorDecl) : Outline :=
  .node [] decl.span (.leaf decl.name decl.nameSpan :: decl.params.map ParamDecl.outline ++
    [decl.body.outline])

def InitializerDecl.outline (decl : InitializerDecl) : Outline :=
  .node [] decl.span [decl.body.outline]

/-- The outline of a type, given those of its members. The braces around them are a part. -/
def TypeHeader.outline (header : TypeHeader) (members : List Outline) : Outline :=
  .node [header.name] header.span [.node [] header.bodySpan members]

mutual

def Member.outline : Member → Outline
  | .field decl => decl.outline
  | .method decl => decl.outline
  | .constructor decl => decl.outline
  | .initializer decl => decl.outline
  | .type header members => header.outline (outlineAll members)

def Member.outlineAll : List Member → List Outline
  | [] => []
  | member :: members => member.outline :: outlineAll members

end

theorem Member.outlineAll_eq (members : List Member) :
    outlineAll members = members.map outline := by
  induction members with
  | nil => rfl
  | cons member members ih => rw [outlineAll, ih, List.map_cons]

theorem Member.span_outline (member : Member) : member.outline.span = member.span := by
  cases member <;> rfl

def TypeDecl.outline (decl : TypeDecl) : Outline :=
  decl.header.outline (decl.members.map Member.outline)

def CompilationUnit.outline (unit : CompilationUnit) : Outline :=
  .node [] unit.span (unit.types.map TypeDecl.outline)

end MethodContracts.Source
