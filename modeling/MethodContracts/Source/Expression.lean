import MethodContracts.Source.TypeRef

/-!
# Expressions

An expression is an assignment, a conditional, a chain of binary operators, a
unary expression or a postfix expression, from the loosest form to the tightest.
A parenthesis may open a lambda, a cast or a group, and is tried in this order.

Whatever an expression nests starts at least one token after it. The forms are
therefore described over a reader of nested expressions, and a reader of a depth
that exceeds the number of tokens left reads every expression.
-/
namespace MethodContracts.Source

/-- The forms at which an expression may be read. -/
inductive Form where
  | assignment
  | conditional
  /-- Binary operators of at least this strength. -/
  | binary (minimum : Nat)
  | unary
deriving DecidableEq, Repr

namespace BinaryOp

/-- How strongly an operator binds its operands. -/
def strength : BinaryOp → Nat
  | .orOr => 1
  | .andAnd => 2
  | .bitOr => 3
  | .bitXor => 4
  | .bitAnd => 5
  | .equal | .notEqual => 6
  | .less | .greater | .lessEqual | .greaterEqual => 7
  | .add | .sub => 9
  | .mul | .div | .rem => 10

/-- How strongly `instanceof` binds its operand. -/
def instanceOfStrength : Nat := 7

end BinaryOp

namespace TokenKind

def binaryOp? : TokenKind → Option BinaryOp
  | .orOr => some .orOr
  | .andAnd => some .andAnd
  | .pipe => some .bitOr
  | .caret => some .bitXor
  | .amp => some .bitAnd
  | .equal => some .equal
  | .notEqual => some .notEqual
  | .less => some .less
  | .greater => some .greater
  | .lessEqual => some .lessEqual
  | .greaterEqual => some .greaterEqual
  | .plus => some .add
  | .minus => some .sub
  | .star => some .mul
  | .slash => some .div
  | .percent => some .rem
  | _ => none

/-- The operator that a token is in front of its operand. -/
def prefixedOp? : TokenKind → Option UnaryOp
  | .bang => some .not
  | .minus => some .neg
  | .plus => some .plus
  | .tilde => some .bitNot
  | .increment => some .preIncrement
  | .decrement => some .preDecrement
  | _ => none

/-- The operator that a token is behind its operand. -/
def postfixedOp? : TokenKind → Option UnaryOp
  | .increment => some .postIncrement
  | .decrement => some .postDecrement
  | _ => none

/-- Whether a token may only close or separate, and so belongs to what stands
around an expression. -/
def isDelimiter : TokenKind → Bool
  | .closeParen | .closeBrace | .closeBracket | .semicolon | .comma | .colon => true
  | _ => false

end TokenKind

/-- The types whose names cannot be variables. -/
def primitiveTypes : List String :=
  ["boolean", "byte", "char", "short", "int", "long", "float", "double"]

namespace Cursor

/-- The number of tokens of the parameters, if a lambda starts here. -/
def lambdaParams? (c : Cursor) : Option Nat :=
  let count :=
    match c.kind? with
    | some .ident => some 1
    | some .openParen => groupLength? .openParen .closeParen c.rest
    | _ => none
  count.filter fun n => c.atNth n .arrow

/-- Whether the token after a parenthesized type can start what is cast. A sign
can if the type is a primitive one; otherwise it is a binary operator. -/
def atCastOperand (c : Cursor) (type : String) : Bool :=
  match c.rest[1]? with
  | none => false
  | some token =>
    match token.kind with
    | .ident => token.text != "instanceof"
    | .number | .string | .char | .openParen | .bang | .tilde => true
    | .plus | .minus | .increment | .decrement => primitiveTypes.contains type
    | _ => false

end Cursor

namespace Parser

section Forms

variable (nested : Form → Parser Expr)

/-- Reads one argument and the comma after it. -/
def argumentStep : Parser (Option (List Expr)) := do
  let c ← get
  if c.atEnd || c.atKind .closeParen then return none
  let argument ← nested .assignment
  let after ← get
  -- Without progress one token is given up, so that the arguments end.
  if after.atKind .comma || after.left == c.left then advance
  return some [argument]

/-- Reads arguments in parentheses, with the end of the closing one. -/
def argumentList : Parser (List Expr × Nat) := do
  let opening ← expect .openParen
  let arguments ← collect (argumentStep nested)
  let closing ← expect .closeParen
  return (arguments, max closing.span.stop opening.span.stop)

def lambda? : Parser (Option Expr) := do
  let c ← get
  match c.lambdaParams? with
  | none => return none
  | some count =>
    advanceBy (count + 1)
    -- The body is passed over and not kept.
    if (← get).atKind .openBrace then skipGroup .openBrace .closeBrace
    else discard (nested .assignment)
    return some (.lambda ((← get).since c.here))

def dimensionStep (_ : Unit) : Parser (Option Unit) := do
  if (← get).atKind .openBracket then
    skipGroup .openBracket .closeBracket
    return some ()
  else return none

def newExpr : Parser Expr := do
  let keyword ← expect .ident
  let type ← typeAfter "new"
  let arguments ←
    if (← get).atKind .openParen then
      let (arguments, _) ← argumentList nested
      pure arguments
    else pure []
  iterate dimensionStep ()
  -- The body of an anonymous class is not looked into.
  skipGroup .openBrace .closeBrace
  return .new type arguments ⟨keyword.span.start, max (← get).lastEnd keyword.span.stop⟩

/-- The expression that a single word is. -/
def wordExpr (token : Token) : Expr :=
  if token.text = "true" then .bool true token.span
  else if token.text = "false" then .bool false token.span
  else if token.text = "null" then .null token.span
  else if token.text = "this" then .this token.span
  else .name token.text token.span

/-- Reads an expression that no operator is part of. -/
def primary : Parser Expr := do
  let c ← get
  match c.rest with
  | [] =>
    report .expression
    return .missing (.point c.here)
  | token :: _ =>
    match token.kind with
    | .ident =>
      if c.atWord "new" then newExpr nested
      else
        advance
        return wordExpr token
    | .number =>
      advance
      return .number token.text token.span
    | .string =>
      advance
      return .string token.text token.span
    | .char =>
      advance
      return .char token.text token.span
    | .openParen =>
      advance
      let inner ← nested .assignment
      let closing ← expect .closeParen
      return .paren inner ⟨token.span.start, max closing.span.stop token.span.stop⟩
    | kind =>
      report .expression
      -- A delimiter is left to whoever waits for it.
      if kind.isDelimiter then return .missing (.point c.here)
      else
        advance
        return .missing token.span

/-- Reads one access, call, index, method reference or operator behind an expression. -/
def postfixedStep (expr : Expr) : Parser (Option Expr) := do
  let c ← get
  let start := expr.span.start
  match c.rest with
  | [] => return none
  | token :: _ =>
    match token.kind with
    | .dot =>
      if c.atNth 1 .ident then
        advance
        let name ← expect .ident
        return some (.field expr name.text name.span ⟨start, name.span.stop⟩)
      else return none
    | .openParen =>
      let (arguments, stop) ← argumentList nested
      return some (.call expr arguments ⟨start, stop⟩)
    | .openBracket =>
      advance
      let position ← nested .assignment
      let closing ← expect .closeBracket
      return some (.index expr position ⟨start, closing.span.stop⟩)
    | .methodRef =>
      advance
      let name ← expect .ident
      return some (.methodRef expr name.text ⟨start, max (← get).lastEnd name.span.stop⟩)
    | kind =>
      match kind.postfixedOp? with
      | none => return none
      | some op =>
        advance
        return some (.unary op expr (expr.span.cover token.span))

def postfixed : Parser Expr := do
  let first ← primary nested
  iterate (postfixedStep nested) first

/-- Reads `&` and one more type of a cast; where no type stands, there is no cast. -/
def castTypeStep (type : Option TypeRef) : Parser (Option (Option TypeRef)) := do
  match type with
  | none => return none
  | some type =>
    if (← get).atKind .amp then
      advance
      match ← typeRef? with
      | none => return some none
      | some bound =>
        return some (some ⟨type.text ++ " & " ++ bound.text, type.span.cover bound.span⟩)
    else return none

/-- Reads the type of a cast up to its closing parenthesis, if this is a cast. -/
def castType? : Parser (Option TypeRef) := do
  let type ← iterate castTypeStep (← typeRef?)
  let c ← get
  return type.filter fun type => c.atKind .closeParen && c.atCastOperand type.text

/-- Reads a cast if one starts here; otherwise reads nothing. -/
def cast? : Parser (Option Expr) := do
  let before ← get
  advance
  match ← castType? with
  | none =>
    -- It was an expression in parentheses after all.
    set before
    return none
  | some type =>
    advance
    let operand ←
      match ← lambda? nested with
      | some lambda => pure lambda
      | none => nested .unary
    let opening := before.place
    return some (.cast type operand ⟨opening.start, max operand.span.stop opening.stop⟩)

/-- Reads an operator in front of an operand, or a postfix expression. -/
def signed : Parser Expr := do
  let c ← get
  match c.kind?.bind TokenKind.prefixedOp? with
  | none => postfixed nested
  | some op =>
    advance
    let operand ← nested .unary
    return .unary op operand ⟨c.here, max operand.span.stop c.here⟩

def unary : Parser Expr := do
  if (← get).atKind .openParen then
    match ← cast? nested with
    | some cast => return cast
    | none => signed nested
  else signed nested

/-- Reads `instanceof`, a type and the variable that the type may bind. -/
def instanceOf (operand : Expr) : Parser Expr := do
  advance
  skipWord "final"
  let type ← typeAfter "instanceof"
  let c ← get
  -- The variable of a pattern is not kept.
  if c.atKind .ident && !c.atWord "instanceof" then advance
  return .instanceOf operand type
    ⟨operand.span.start, max (← get).lastEnd type.span.stop⟩

/-- Reads one operator of at least `minimum` strength and its right operand. -/
def binaryStep (minimum : Nat) (left : Expr) : Parser (Option Expr) := do
  let c ← get
  if c.atWord "instanceof" then
    if BinaryOp.instanceOfStrength < minimum then return none
    let expr ← instanceOf left
    return some expr
  else
    match c.kind?.bind TokenKind.binaryOp? with
    | none => return none
    | some op =>
      if op.strength < minimum then return none
      advance
      -- Stronger operators only, so that equal ones group to the left.
      let right ← nested (.binary (op.strength + 1))
      return some (.binary op left right (left.span.cover right.span))

def binary (minimum : Nat) : Parser Expr := do
  let first ← unary nested
  iterate (binaryStep nested minimum) first

def conditional : Parser Expr := do
  let condition ← binary nested 0
  if (← get).atKind .question then
    advance
    let whenTrue ← nested .assignment
    discard (expect .colon)
    -- A conditional in the last place groups to the right.
    let whenFalse ← nested .conditional
    return .conditional condition whenTrue whenFalse (condition.span.cover whenFalse.span)
  else return condition

def assignment : Parser Expr := do
  match ← lambda? nested with
  | some lambda => return lambda
  | none =>
    let target ← conditional nested
    if (← get).atKind .assign then
      advance
      let value ← nested .assignment
      return .assign target value (target.span.cover value.span)
    else return target

/-- Reads an expression at one of the forms. -/
def ofForm : Form → Parser Expr
  | .assignment => assignment nested
  | .conditional => conditional nested
  | .binary minimum => binary nested minimum
  | .unary => unary nested

end Forms

/-- Reads expressions that nest less than `depth` deep. -/
def exprWithin : Nat → Form → Parser Expr
  | 0, _ => fun c => (.missing (.point c.here), c)
  | depth + 1, form => ofForm (exprWithin depth) form

def expr : Parser Expr := do
  exprWithin ((← get).left + 1) .assignment

end Parser
end MethodContracts.Source
