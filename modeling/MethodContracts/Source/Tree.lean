import MethodContracts.Span

/-!
# Source trees

What the parser reads: types with their members, method declarations,
statements and expressions, each with its span. Constructs that inference never
looks into are kept only in outline: a lambda is its span, and a loop other than
`while`, a `switch` or a `try` is its keyword.
-/
namespace MethodContracts.Source

/-- A type as written, generic arguments included. -/
structure TypeRef where
  text : String
  span : Span
deriving DecidableEq, Repr

inductive UnaryOp where
  | not
  | neg
  | plus
  | bitNot
  | preIncrement
  | preDecrement
  | postIncrement
  | postDecrement
deriving DecidableEq, Repr

inductive BinaryOp where
  | add
  | sub
  | mul
  | div
  | rem
  | equal
  | notEqual
  | less
  | greater
  | lessEqual
  | greaterEqual
  | bitAnd
  | bitOr
  | bitXor
  | andAnd
  | orOr
deriving DecidableEq, Repr

inductive Expr where
  | name (name : String) (span : Span)
  | number (text : String) (span : Span)
  | string (text : String) (span : Span)
  | char (text : String) (span : Span)
  | bool (value : Bool) (span : Span)
  | null (span : Span)
  | this (span : Span)
  | call (callee : Expr) (arguments : List Expr) (span : Span)
  | field (receiver : Expr) (name : String) (nameSpan span : Span)
  | index (array position : Expr) (span : Span)
  | new (type : TypeRef) (arguments : List Expr) (span : Span)
  | unary (op : UnaryOp) (operand : Expr) (span : Span)
  | binary (op : BinaryOp) (left right : Expr) (span : Span)
  | instanceOf (operand : Expr) (type : TypeRef) (span : Span)
  | conditional (condition whenTrue whenFalse : Expr) (span : Span)
  | assign (target value : Expr) (span : Span)
  | paren (inner : Expr) (span : Span)
  | cast (type : TypeRef) (operand : Expr) (span : Span)
  /-- Parameters and body are not kept. -/
  | lambda (span : Span)
  /-- The name may be `new`. -/
  | methodRef (receiver : Expr) (name : String) (span : Span)
  /-- Stands where an expression was expected. -/
  | missing (span : Span)

def Expr.span : Expr → Span
  | .name _ span | .number _ span | .string _ span | .char _ span | .bool _ span
  | .null span | .this span | .call _ _ span | .field _ _ _ span | .index _ _ span
  | .new _ _ span | .unary _ _ span | .binary _ _ _ span | .instanceOf _ _ span
  | .conditional _ _ _ span | .assign _ _ span | .paren _ span | .cast _ _ span
  | .lambda span | .methodRef _ _ span | .missing span => span

inductive Stmt where
  | local (type : TypeRef) (name : String) (nameSpan : Span) (init : Option Expr) (span : Span)
  | expr (expr : Expr) (span : Span)
  | returns (value : Option Expr) (span : Span)
  | throws (value : Expr) (span : Span)
  | ifElse (condition : Expr) (whenTrue : Stmt) (whenFalse : Option Stmt) (span : Span)
  | assert (condition : Expr) (message : Option Expr) (span : Span)
  | while (condition : Expr) (body : Stmt) (span : Span)
  /-- Only the keyword is kept. -/
  | skipped (keyword : String) (span : Span)
  | block (statements : List Stmt) (span : Span)
  | empty (span : Span)

def Stmt.span : Stmt → Span
  | .local _ _ _ _ span | .expr _ span | .returns _ span | .throws _ span
  | .ifElse _ _ _ span | .assert _ _ span | .while _ _ span | .skipped _ span
  | .block _ span | .empty span => span

structure Block where
  statements : List Stmt
  span : Span

def Block.toStmt (block : Block) : Stmt := .block block.statements block.span

inductive AnnotationValue where
  /-- The value of a single string literal. -/
  | string (value : String)
  /-- Anything else, as the texts of its tokens. -/
  | other (text : String)
deriving DecidableEq, Repr

structure AnnotationArgument where
  name : Option String
  value : AnnotationValue
  span : Span
deriving DecidableEq, Repr

structure Annotation where
  /-- The name as written, possibly with dots. -/
  name : String
  arguments : List AnnotationArgument
  span : Span
deriving DecidableEq, Repr

/-- The first string given for an element. An argument without a name is the
element `value`. -/
def Annotation.stringValue? (note : Annotation) (element : String) : Option String :=
  note.arguments.findSome? fun argument =>
    match argument.value with
    | .string value => if argument.name.getD "value" = element then some value else none
    | .other _ => none

structure ParamDecl where
  type : TypeRef
  name : String
  nameSpan : Span
  span : Span
deriving DecidableEq, Repr

structure FieldDecl where
  type : TypeRef
  name : String
  nameSpan : Span
  span : Span
deriving DecidableEq, Repr

structure MethodDecl where
  annotations : List Annotation
  returnType : TypeRef
  name : String
  nameSpan : Span
  params : List ParamDecl
  body : Option Block
  span : Span

structure ConstructorDecl where
  name : String
  nameSpan : Span
  params : List ParamDecl
  body : Block
  span : Span

structure InitializerDecl where
  isStatic : Bool
  body : Block
  span : Span

inductive TypeKind where
  | classType
  | interfaceType
  | enumType
  | recordType
  | annotationType
deriving DecidableEq, Repr

/-- All of a type declaration but its members. -/
structure TypeHeader where
  kind : TypeKind
  name : String
  span : Span
  bodySpan : Span
deriving DecidableEq, Repr

inductive Member where
  | field (decl : FieldDecl)
  | method (decl : MethodDecl)
  | constructor (decl : ConstructorDecl)
  | initializer (decl : InitializerDecl)
  | type (header : TypeHeader) (members : List Member)

def Member.span : Member → Span
  | .field decl => decl.span
  | .method decl => decl.span
  | .constructor decl => decl.span
  | .initializer decl => decl.span
  | .type header _ => header.span

structure TypeDecl where
  header : TypeHeader
  members : List Member

structure CompilationUnit where
  types : List TypeDecl
  span : Span

end MethodContracts.Source
