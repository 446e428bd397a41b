import MethodContracts.Diagnostic
import MethodContracts.Json.Decode
import MethodContracts.Method.Basic

/-!
# Methods as JSON

The JSON form of a method and of its body. Writing gives every field, apart
from an owner or annotations that are not there. Reading takes a missing field
to be empty where that makes sense; reading what was written gives it back.
-/
namespace MethodContracts

open Json

/-- Places in an arena are numbers of 32 bits. -/
def idBound : Nat := Nat.pow 2 32

/-- Offsets are numbers of 64 bits. -/
def offsetBound : Nat := Nat.pow 2 64

namespace Span

def toJson (span : Span) : Json :=
  .object [("start", .nat span.start), ("end", .nat span.stop)]

def ofJson? (json : Json) : Option Span :=
  match fields? ["start", "end"] json with
  | some [start, stop] => do
    let start ← required (natBelow? offsetBound) start
    let stop ← required (natBelow? offsetBound) stop
    return ⟨start, stop⟩
  | _ => none

/-- A span that may be missing. -/
def field? : Option Json → Option Span := withDefault ⟨0, 0⟩ ofJson?

end Span

def StmtId.toJson (id : StmtId) : Json := .nat id.index

def StmtId.ofJson? (json : Json) : Option StmtId := (natBelow? idBound json).map (⟨·⟩)

def ExprId.toJson (id : ExprId) : Json := .nat id.index

def ExprId.ofJson? (json : Json) : Option ExprId := (natBelow? idBound json).map (⟨·⟩)

namespace Literal

def word : Literal → String
  | .null => "null"
  | .isTrue => "true"
  | .isFalse => "false"
  | .int => "int"
  | .string => "string"
  | .char => "char"

def all : List Literal := [.null, .isTrue, .isFalse, .int, .string, .char]

def ofWord? (word : String) : Option Literal := all.find? (·.word == word)

def ofPart? (json : Json) : Option Literal := (wordInNode? json).bind ofWord?

end Literal

namespace UnaryOp

def word : UnaryOp → String
  | .not => "not"
  | .neg => "neg"
  | .plus => "plus"
  | .bitNot => "bit_not"
  | .preIncrement => "pre_inc"
  | .preDecrement => "pre_dec"
  | .postIncrement => "post_inc"
  | .postDecrement => "post_dec"

def all : List UnaryOp :=
  [.not, .neg, .plus, .bitNot, .preIncrement, .preDecrement, .postIncrement, .postDecrement]

def ofWord? (word : String) : Option UnaryOp := all.find? (·.word == word)

def ofPart? (json : Json) : Option UnaryOp := (wordInNode? json).bind ofWord?

end UnaryOp

namespace BinaryOp

def word : BinaryOp → String
  | .add => "add"
  | .sub => "sub"
  | .mul => "mul"
  | .div => "div"
  | .rem => "rem"
  | .equal => "eq"
  | .notEqual => "not_eq"
  | .less => "lt"
  | .greater => "gt"
  | .lessEqual => "lt_eq"
  | .greaterEqual => "gt_eq"
  | .bitAnd => "bit_and"
  | .bitOr => "bit_or"
  | .bitXor => "bit_xor"
  | .and => "and"
  | .or => "or"

def all : List BinaryOp :=
  [.add, .sub, .mul, .div, .rem, .equal, .notEqual, .less, .greater, .lessEqual, .greaterEqual,
    .bitAnd, .bitOr, .bitXor, .and, .or]

def ofWord? (word : String) : Option BinaryOp := all.find? (·.word == word)

def ofPart? (json : Json) : Option BinaryOp := (wordInNode? json).bind ofWord?

end BinaryOp

/-- A node as an object: its kind first and its span last. -/
def nodeJson (kind : String) (fields : List (String × Json)) (span : Span) : Json :=
  .object (("kind", .string kind) :: fields ++ [("range", span.toJson)])

namespace Expr

def toJson : Expr → Json
  | .name word span => nodeJson "name" [("name", .string word)] span
  | .literal kind text span =>
    nodeJson "literal" [("literal", .string kind.word), ("value", .string text)] span
  | .this span => nodeJson "this" [] span
  | .field receiver member span =>
    nodeJson "field_access" [("receiver", receiver.toJson), ("name", .string member)] span
  | .index base position span =>
    nodeJson "array_access" [("array", base.toJson), ("index", position.toJson)] span
  | .call callee arguments span =>
    nodeJson "call" [("callee", callee.toJson), ("args", .ofList ExprId.toJson arguments)] span
  | .new type arguments span =>
    nodeJson "new" [("class", .string type), ("args", .ofList ExprId.toJson arguments)] span
  | .unary op operand span =>
    nodeJson "unary" [("op", .string op.word), ("expr", operand.toJson)] span
  | .chain op operands span =>
    nodeJson "polyadic"
      [("op", .string op.word), ("operands", .ofList ExprId.toJson operands)] span
  | .instanceOf operand type span =>
    nodeJson "instance_of" [("expr", operand.toJson), ("ty", .string type)] span
  | .conditional condition whenTrue whenFalse span =>
    nodeJson "conditional"
      [("condition", condition.toJson), ("then_expr", whenTrue.toJson),
        ("else_expr", whenFalse.toJson)] span
  | .paren inner span => nodeJson "paren" [("expr", inner.toJson)] span
  | .assign target value span =>
    nodeJson "assign" [("target", target.toJson), ("value", value.toJson)] span
  | .cast type operand span =>
    nodeJson "cast" [("ty", .string type), ("expr", operand.toJson)] span
  | .lambda span => nodeJson "lambda" [] span
  | .methodRef receiver member span =>
    nodeJson "method_ref" [("receiver", receiver.toJson), ("name", .string member)] span
  | .missing span => nodeJson "missing" [] span

def kinds : List String :=
  ["name", "literal", "this", "field_access", "array_access", "call", "new", "unary", "polyadic",
    "instance_of", "conditional", "paren", "assign", "cast", "lambda", "method_ref", "missing"]

/-- Arguments that may be missing. -/
def argumentsField? : Option Json → Option (List ExprId) := withDefault [] (listOf? ExprId.ofJson?)

/-- The names of the fields of each kind, in order. -/
def fieldNames : String → List String
  | "name" => ["name", "range"]
  | "literal" => ["literal", "value", "range"]
  | "field_access" => ["receiver", "name", "range"]
  | "array_access" => ["array", "index", "range"]
  | "call" => ["callee", "args", "range"]
  | "new" => ["class", "args", "range"]
  | "unary" => ["op", "expr", "range"]
  | "polyadic" => ["op", "operands", "range"]
  | "instance_of" => ["expr", "ty", "range"]
  | "conditional" => ["condition", "then_expr", "else_expr", "range"]
  | "paren" => ["expr", "range"]
  | "assign" => ["target", "value", "range"]
  | "cast" => ["ty", "expr", "range"]
  | "method_ref" => ["receiver", "name", "range"]
  | _ => ["range"]

/-- The expression of a kind with these fields. -/
def ofFields? : String → List (Option Json) → Option Expr
  | "name", [word, span] => do
    return .name (← required string? word) (← Span.field? span)
  | "literal", [kind, text, span] => do
    return .literal (← required Literal.ofPart? kind) (← withDefault "" string? text)
      (← Span.field? span)
  | "this", [span] => do
    return .this (← Span.field? span)
  | "field_access", [receiver, member, span] => do
    return .field (← required ExprId.ofJson? receiver) (← required string? member)
      (← Span.field? span)
  | "array_access", [base, position, span] => do
    return .index (← required ExprId.ofJson? base) (← required ExprId.ofJson? position)
      (← Span.field? span)
  | "call", [callee, arguments, span] => do
    return .call (← required ExprId.ofJson? callee) (← argumentsField? arguments)
      (← Span.field? span)
  | "new", [type, arguments, span] => do
    return .new (← required string? type) (← argumentsField? arguments) (← Span.field? span)
  | "unary", [op, operand, span] => do
    return .unary (← required UnaryOp.ofPart? op) (← required ExprId.ofJson? operand)
      (← Span.field? span)
  | "polyadic", [op, operands, span] => do
    return .chain (← required BinaryOp.ofPart? op)
      (← required (listOf? ExprId.ofJson?) operands) (← Span.field? span)
  | "instance_of", [operand, type, span] => do
    return .instanceOf (← required ExprId.ofJson? operand) (← required string? type)
      (← Span.field? span)
  | "conditional", [condition, whenTrue, whenFalse, span] => do
    return .conditional (← required ExprId.ofJson? condition)
      (← required ExprId.ofJson? whenTrue) (← required ExprId.ofJson? whenFalse)
      (← Span.field? span)
  | "paren", [inner, span] => do
    return .paren (← required ExprId.ofJson? inner) (← Span.field? span)
  | "assign", [target, value, span] => do
    return .assign (← required ExprId.ofJson? target) (← required ExprId.ofJson? value)
      (← Span.field? span)
  | "cast", [type, operand, span] => do
    return .cast (← required string? type) (← required ExprId.ofJson? operand)
      (← Span.field? span)
  | "lambda", [span] => do
    return .lambda (← Span.field? span)
  | "method_ref", [receiver, member, span] => do
    return .methodRef (← required ExprId.ofJson? receiver) (← required string? member)
      (← Span.field? span)
  | "missing", [span] => do
    return .missing (← Span.field? span)
  | _, _ => none

def ofJson? (form : KindForm) (json : Json) : Option Expr := do
  let (kind, content) ← tagged? form kinds json
  let fields ← fields? (fieldNames kind) content
  ofFields? kind fields

end Expr

namespace Stmt

def toJson : Stmt → Json
  | .block statements span =>
    nodeJson "block" [("statements", .ofList StmtId.toJson statements)] span
  | .ifElse condition whenTrue whenFalse span =>
    nodeJson "if"
      [("condition", condition.toJson), ("then_branch", whenTrue.toJson),
        ("else_branch", .ofOption StmtId.toJson whenFalse)] span
  | .throws value span => nodeJson "throw" [("expr", value.toJson)] span
  | .returns value span => nodeJson "return" [("expr", .ofOption ExprId.toJson value)] span
  | .assert condition message span =>
    nodeJson "assert"
      [("condition", condition.toJson), ("message", .ofOption ExprId.toJson message)] span
  | .while condition body span =>
    nodeJson "while" [("condition", condition.toJson), ("body", body.toJson)] span
  | .local name init span =>
    nodeJson "let" [("name", .string name), ("initializer", .ofOption ExprId.toJson init)] span
  | .expr value span => nodeJson "expr" [("expr", value.toJson)] span
  | .skipped keyword span => nodeJson "opaque" [("keyword", .string keyword)] span
  | .empty span => nodeJson "empty" [] span

def kinds : List String :=
  ["block", "if", "throw", "return", "assert", "while", "let", "expr", "opaque", "empty"]

def fieldNames : String → List String
  | "block" => ["statements", "range"]
  | "if" => ["condition", "then_branch", "else_branch", "range"]
  | "throw" => ["expr", "range"]
  | "return" => ["expr", "range"]
  | "assert" => ["condition", "message", "range"]
  | "while" => ["condition", "body", "range"]
  | "let" => ["name", "initializer", "range"]
  | "expr" => ["expr", "range"]
  | "opaque" => ["keyword", "range"]
  | _ => ["range"]

/-- The statement of a kind with these fields. -/
def ofFields? : String → List (Option Json) → Option Stmt
  | "block", [statements, span] => do
    return .block (← required (listOf? StmtId.ofJson?) statements) (← Span.field? span)
  | "if", [condition, whenTrue, whenFalse, span] => do
    return .ifElse (← required ExprId.ofJson? condition) (← required StmtId.ofJson? whenTrue)
      (← optional StmtId.ofJson? whenFalse) (← Span.field? span)
  | "throw", [value, span] => do
    return .throws (← required ExprId.ofJson? value) (← Span.field? span)
  | "return", [value, span] => do
    return .returns (← optional ExprId.ofJson? value) (← Span.field? span)
  | "assert", [condition, message, span] => do
    return .assert (← required ExprId.ofJson? condition) (← optional ExprId.ofJson? message)
      (← Span.field? span)
  | "while", [condition, body, span] => do
    return .while (← required ExprId.ofJson? condition) (← required StmtId.ofJson? body)
      (← Span.field? span)
  | "let", [name, init, span] => do
    return .local (← required string? name) (← optional ExprId.ofJson? init)
      (← Span.field? span)
  | "expr", [value, span] => do
    return .expr (← required ExprId.ofJson? value) (← Span.field? span)
  | "opaque", [keyword, span] => do
    return .skipped (← required string? keyword) (← Span.field? span)
  | "empty", [span] => do
    return .empty (← Span.field? span)
  | _, _ => none

def ofJson? (form : KindForm) (json : Json) : Option Stmt := do
  let (kind, content) ← tagged? form kinds json
  let fields ← fields? (fieldNames kind) content
  ofFields? kind fields

end Stmt

namespace Body

def toJson (body : Body) : Json :=
  .object [("root", body.root.toJson), ("stmts", .ofList Stmt.toJson body.stmts.toList),
    ("exprs", .ofList Expr.toJson body.exprs.toList)]

def ofJson? (form : KindForm) (json : Json) : Option Body :=
  match fields? ["root", "stmts", "exprs"] json with
  | some [root, stmts, exprs] => do
    let root ← required StmtId.ofJson? root
    let stmts ← required (listOf? (Stmt.ofJson? form)) stmts
    let exprs ← required (listOf? (Expr.ofJson? form)) exprs
    return ⟨root, stmts.toArray, exprs.toArray⟩
  | _ => none

end Body

namespace Param

def toJson (param : Param) : Json :=
  .object [("name", .string param.name), ("ty", .string param.type)]

def ofJson? (json : Json) : Option Param :=
  match fields? ["name", "ty"] json with
  | some [name, type] => do
    let name ← required string? name
    let type ← withDefault "" string? type
    return ⟨name, type⟩
  | _ => none

end Param

namespace MethodAnnotation

def toJson (note : MethodAnnotation) : Json :=
  .object [("name", .string note.name), ("value", .ofOption .string note.value),
    ("range", note.span.toJson)]

def ofJson? (json : Json) : Option MethodAnnotation :=
  match fields? ["name", "value", "range"] json with
  | some [name, value, span] => do
    let name ← required string? name
    let value ← optional string? value
    let span ← Span.field? span
    return ⟨name, value, span⟩
  | _ => none

end MethodAnnotation

namespace Method

def toJson (method : Method) : Json :=
  let owner :=
    match method.owner with
    | some owner => [("owner", Json.string owner)]
    | none => []
  let annotations :=
    if method.annotations.isEmpty then []
    else [("annotations", Json.ofList MethodAnnotation.toJson method.annotations)]
  .object (("name", .string method.name) :: owner ++
    [("params", .ofList Param.toJson method.params)] ++ annotations ++
    [("body", .ofOption Body.toJson method.body), ("range", method.span.toJson)])

def ofJson? (form : KindForm) (json : Json) : Option Method :=
  match fields? ["name", "owner", "params", "annotations", "body", "range"] json with
  | some [name, owner, params, annotations, body, span] => do
    let name ← required string? name
    let owner ← optional string? owner
    let params ← withDefault [] (listOf? Param.ofJson?) params
    let annotations ← withDefault [] (listOf? MethodAnnotation.ofJson?) annotations
    let body ← optional (Body.ofJson? form) body
    let span ← Span.field? span
    return ⟨name, owner, params, annotations, body, span⟩
  | _ => none

/-- Reads a list of methods, or a single method. A value that is both is a list. -/
def listOfJson? (form : KindForm) (json : Json) : Option (List Method) :=
  (listOf? (ofJson? form) json) <|> (ofJson? form json).map ([·])

end Method

namespace Diagnostic

/-- The members of the object that shows a diagnostic. -/
def jsonMembers (diagnostic : Diagnostic) : List (String × Json) :=
  [("severity", .string diagnostic.severity.word), ("code", .string diagnostic.code),
    ("message", .string diagnostic.message), ("span", .ofOption Span.toJson diagnostic.span)]

def toJson (diagnostic : Diagnostic) : Json := .object diagnostic.jsonMembers

end Diagnostic
end MethodContracts
