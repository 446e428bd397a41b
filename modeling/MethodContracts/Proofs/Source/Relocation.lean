import Mathlib.Order.MinMax
import MethodContracts.Source.Parse

/-!
# Trees at other places

A function on places moves spans, and so tokens, errors and trees. What a tree says apart
from its spans stays as it is: two trees say the same if they are equal when all their places
are moved to one.
-/
namespace MethodContracts

/-- The span between the places to which `move` takes its ends. -/
def Span.moved (move : Nat → Nat) (span : Span) : Span := ⟨move span.start, move span.stop⟩

namespace Source

variable (move : Nat → Nat)

def Token.moved (token : Token) : Token := { token with span := token.span.moved move }

def SyntaxError.moved (error : SyntaxError) : SyntaxError :=
  { error with span := error.span.moved move }

def TypeRef.moved (type : TypeRef) : TypeRef := { type with span := type.span.moved move }

mutual

def Expr.moved : Expr → Expr
  | .name word span => .name word (span.moved move)
  | .number text span => .number text (span.moved move)
  | .string text span => .string text (span.moved move)
  | .char text span => .char text (span.moved move)
  | .bool value span => .bool value (span.moved move)
  | .null span => .null (span.moved move)
  | .this span => .this (span.moved move)
  | .call callee arguments span => .call callee.moved (movedAll arguments) (span.moved move)
  | .field receiver member nameSpan span =>
    .field receiver.moved member (nameSpan.moved move) (span.moved move)
  | .index array position span => .index array.moved position.moved (span.moved move)
  | .new type arguments span => .new (type.moved move) (movedAll arguments) (span.moved move)
  | .unary op operand span => .unary op operand.moved (span.moved move)
  | .binary op left right span => .binary op left.moved right.moved (span.moved move)
  | .instanceOf operand type span =>
    .instanceOf operand.moved (type.moved move) (span.moved move)
  | .conditional condition whenTrue whenFalse span =>
    .conditional condition.moved whenTrue.moved whenFalse.moved (span.moved move)
  | .assign target value span => .assign target.moved value.moved (span.moved move)
  | .paren inner span => .paren inner.moved (span.moved move)
  | .cast type operand span => .cast (type.moved move) operand.moved (span.moved move)
  | .lambda span => .lambda (span.moved move)
  | .methodRef receiver member span => .methodRef receiver.moved member (span.moved move)
  | .missing span => .missing (span.moved move)

def Expr.movedAll : List Expr → List Expr
  | [] => []
  | expr :: exprs => expr.moved :: movedAll exprs

end

mutual

def Stmt.moved : Stmt → Stmt
  | .local type name nameSpan init span =>
    .local (type.moved move) name (nameSpan.moved move) (init.map (Expr.moved move))
      (span.moved move)
  | .expr value span => .expr (value.moved move) (span.moved move)
  | .returns value span => .returns (value.map (Expr.moved move)) (span.moved move)
  | .throws value span => .throws (value.moved move) (span.moved move)
  | .ifElse condition whenTrue whenFalse span =>
    .ifElse (condition.moved move) whenTrue.moved (movedOption whenFalse) (span.moved move)
  | .assert condition message span =>
    .assert (condition.moved move) (message.map (Expr.moved move)) (span.moved move)
  | .while condition body span => .while (condition.moved move) body.moved (span.moved move)
  | .skipped keyword span => .skipped keyword (span.moved move)
  | .block statements span => .block (movedAll statements) (span.moved move)
  | .empty span => .empty (span.moved move)

def Stmt.movedOption : Option Stmt → Option Stmt
  | none => none
  | some statement => some statement.moved

def Stmt.movedAll : List Stmt → List Stmt
  | [] => []
  | statement :: statements => statement.moved :: movedAll statements

end

def Block.moved (block : Block) : Block :=
  ⟨block.statements.map (Stmt.moved move), block.span.moved move⟩

def AnnotationArgument.moved (argument : AnnotationArgument) : AnnotationArgument :=
  { argument with span := argument.span.moved move }

def Annotation.moved (note : Annotation) : Annotation where
  name := note.name
  arguments := note.arguments.map (AnnotationArgument.moved move)
  span := note.span.moved move

def ParamDecl.moved (param : ParamDecl) : ParamDecl where
  type := param.type.moved move
  name := param.name
  nameSpan := param.nameSpan.moved move
  span := param.span.moved move

def FieldDecl.moved (decl : FieldDecl) : FieldDecl where
  type := decl.type.moved move
  name := decl.name
  nameSpan := decl.nameSpan.moved move
  span := decl.span.moved move

def MethodDecl.moved (decl : MethodDecl) : MethodDecl where
  annotations := decl.annotations.map (·.moved move)
  returnType := decl.returnType.moved move
  name := decl.name
  nameSpan := decl.nameSpan.moved move
  params := decl.params.map (ParamDecl.moved move)
  body := decl.body.map (Block.moved move)
  span := decl.span.moved move

def ConstructorDecl.moved (decl : ConstructorDecl) : ConstructorDecl where
  name := decl.name
  nameSpan := decl.nameSpan.moved move
  params := decl.params.map (ParamDecl.moved move)
  body := decl.body.moved move
  span := decl.span.moved move

def InitializerDecl.moved (decl : InitializerDecl) : InitializerDecl where
  isStatic := decl.isStatic
  body := decl.body.moved move
  span := decl.span.moved move

def TypeHeader.moved (header : TypeHeader) : TypeHeader where
  kind := header.kind
  name := header.name
  span := header.span.moved move
  bodySpan := header.bodySpan.moved move

mutual

def Member.moved : Member → Member
  | .field decl => .field (decl.moved move)
  | .method decl => .method (decl.moved move)
  | .constructor decl => .constructor (decl.moved move)
  | .initializer decl => .initializer (decl.moved move)
  | .type header members => .type (header.moved move) (movedAll members)

def Member.movedAll : List Member → List Member
  | [] => []
  | member :: members => member.moved :: movedAll members

end

def TypeDecl.moved (decl : TypeDecl) : TypeDecl :=
  ⟨decl.header.moved move, decl.members.map (Member.moved move)⟩

def CompilationUnit.moved (unit : CompilationUnit) : CompilationUnit :=
  ⟨unit.types.map (TypeDecl.moved move), unit.span.moved move⟩

/-- What was read and the errors found, where reading trees are moved by `moved`. -/
def Parsed.moved {α : Type} (moved : (Nat → Nat) → α → α) (parsed : Parsed α) : Parsed α :=
  ⟨moved move parsed.value, parsed.errors.map (SyntaxError.moved move)⟩

/-! ## The lists of a tree -/

theorem Expr.movedAll_eq (exprs : List Expr) : movedAll move exprs = exprs.map (moved move) := by
  induction exprs with
  | nil => rfl
  | cons expr exprs ih => rw [movedAll, ih, List.map_cons]

theorem Stmt.movedAll_eq (statements : List Stmt) :
    movedAll move statements = statements.map (moved move) := by
  induction statements with
  | nil => rfl
  | cons statement statements ih => rw [movedAll, ih, List.map_cons]

theorem Member.movedAll_eq (members : List Member) :
    movedAll move members = members.map (moved move) := by
  induction members with
  | nil => rfl
  | cons member members ih => rw [movedAll, ih, List.map_cons]

theorem Expr.span_moved (expr : Expr) : (expr.moved move).span = expr.span.moved move := by
  cases expr <;> rfl

theorem Block.toStmt_moved (block : Block) :
    (block.moved move).toStmt = block.toStmt.moved move := by
  rw [toStmt, toStmt, Stmt.moved, Stmt.movedAll_eq, moved]

theorem Annotation.stringValue?_moved (note : Annotation) (element : String) :
    (note.moved move).stringValue? element = note.stringValue? element := by
  rw [stringValue?, stringValue?, moved, List.findSome?_map]
  rfl

/-! ## The move that leaves every place as it is -/

theorem TypeRef.moved_id (type : TypeRef) : type.moved id = type := rfl

theorem SyntaxError.moved_id : SyntaxError.moved id = id := rfl

mutual

theorem Expr.moved_id : (expr : Expr) → expr.moved id = expr
  | .name .. | .number .. | .string .. | .char .. | .bool .. | .null _ | .this _ | .lambda _
  | .missing _ => rfl
  | .call callee arguments _ => by rw [moved, moved_id callee, movedAll_id arguments]; rfl
  | .new _ arguments _ => by rw [moved, movedAll_id arguments]; rfl
  | .field inner .. | .unary _ inner _ | .instanceOf inner .. | .paren inner _
  | .cast _ inner _ | .methodRef inner .. => by rw [moved, moved_id inner]; rfl
  | .index first second _ | .binary _ first second _ | .assign first second _ => by
    rw [moved, moved_id first, moved_id second]; rfl
  | .conditional first second third _ => by
    rw [moved, moved_id first, moved_id second, moved_id third]; rfl

theorem Expr.movedAll_id : (exprs : List Expr) → movedAll id exprs = exprs
  | [] => rfl
  | expr :: exprs => by rw [movedAll, moved_id expr, movedAll_id exprs]

end

theorem Expr.moved_id_eq : moved id = id := funext moved_id

mutual

theorem Stmt.moved_id : (statement : Stmt) → statement.moved id = statement
  | .local _ _ _ init _ => by rw [moved, Expr.moved_id_eq, Option.map_id]; rfl
  | .expr value _ | .throws value _ => by rw [moved, value.moved_id]; rfl
  | .returns value _ => by rw [moved, Expr.moved_id_eq, Option.map_id]; rfl
  | .ifElse condition whenTrue whenFalse _ => by
    rw [moved, condition.moved_id, moved_id whenTrue, movedOption_id whenFalse]; rfl
  | .assert condition message _ => by
    rw [moved, condition.moved_id, Expr.moved_id_eq, Option.map_id]; rfl
  | .while condition body _ => by rw [moved, condition.moved_id, moved_id body]; rfl
  | .block statements _ => by rw [moved, movedAll_id statements]; rfl
  | .skipped .. | .empty _ => rfl

theorem Stmt.movedOption_id : (statement : Option Stmt) → movedOption id statement = statement
  | none => rfl
  | some statement => by rw [movedOption, moved_id statement]

theorem Stmt.movedAll_id : (statements : List Stmt) → movedAll id statements = statements
  | [] => rfl
  | statement :: statements => by rw [movedAll, moved_id statement, movedAll_id statements]

end

theorem Block.moved_id (block : Block) : block.moved id = block := by
  rw [moved, ← Stmt.movedAll_eq, Stmt.movedAll_id]
  rfl

theorem Annotation.moved_id (note : Annotation) : note.moved id = note := by
  rw [moved, show AnnotationArgument.moved id = id from rfl, List.map_id]
  rfl

theorem MethodDecl.moved_id (decl : MethodDecl) : decl.moved id = decl := by
  have notes : Annotation.moved id = id := funext Annotation.moved_id
  have body : Block.moved id = id := funext Block.moved_id
  rw [moved, notes, body, show ParamDecl.moved id = id from rfl, List.map_id, List.map_id,
    Option.map_id]
  rfl

theorem ConstructorDecl.moved_id (decl : ConstructorDecl) : decl.moved id = decl := by
  rw [moved, show ParamDecl.moved id = id from rfl, List.map_id, Block.moved_id]
  rfl

theorem InitializerDecl.moved_id (decl : InitializerDecl) : decl.moved id = decl := by
  rw [moved, Block.moved_id]
  rfl

mutual

theorem Member.moved_id : (member : Member) → member.moved id = member
  | .field _ => rfl
  | .method decl => by rw [moved, decl.moved_id]
  | .constructor decl => by rw [moved, decl.moved_id]
  | .initializer decl => by rw [moved, decl.moved_id]
  | .type _ members => by rw [moved, movedAll_id members]; rfl

theorem Member.movedAll_id : (members : List Member) → movedAll id members = members
  | [] => rfl
  | member :: members => by rw [movedAll, moved_id member, movedAll_id members]

end

/-! ## Moves that keep the order of places -/

section Order

variable {move} (keeps : Monotone move)
include keeps

theorem cover_moved (left right : Span) :
    (left.moved move).cover (right.moved move) = (left.cover right).moved move := by
  simp only [Span.cover, Span.moved, keeps.map_max, keeps.map_min]

end Order

end Source
end MethodContracts
