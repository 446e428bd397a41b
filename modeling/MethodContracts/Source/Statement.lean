import MethodContracts.Source.Annotation
import MethodContracts.Source.Expression

/-!
# Statements

A word decides which statement stands here; without one it is a declaration of
a local variable if it can be read as such, and an expression otherwise. A
statement nested in another starts at least one token after it, so a reader of
a depth that exceeds the number of tokens left reads every statement.
-/
namespace MethodContracts.Source
namespace Parser

section Nesting

variable (nested : Parser (Option Stmt))

/-- Reads one statement of a block. Where none can be read a token is skipped. -/
def blockStep : Parser (Option (List Stmt)) := do
  let c ← get
  if c.atEnd || c.atKind .closeBrace then return none
  let statement ← nested
  -- A token that begins no statement is given up, so that the block ends.
  if (← get).left == c.left then advance
  return some statement.toList

def blockOf : Parser Block := do
  let opening ← expect .openBrace
  let statements ← collect (blockStep nested)
  let closing ← expect .closeBrace
  return ⟨statements, ⟨opening.span.start, max closing.span.stop opening.span.start⟩⟩

/-- Reads the statement that another one governs; where none stands, reports it
and yields an empty one. -/
def governed : Parser Stmt := do
  let start := (← get).here
  match ← nested with
  | some statement => return statement
  | none =>
    report .statement
    return .empty (.point start)

def parenthesized : Parser Expr := do
  discard (expect .openParen)
  let condition ← expr
  discard (expect .closeParen)
  return condition

def returnStmt : Parser Stmt := do
  let start := (← get).here
  advance
  let value ← if (← get).atKind .semicolon then pure none else some <$> expr
  let closing ← expect .semicolon
  return .returns value ⟨start, closing.span.stop⟩

def throwStmt : Parser Stmt := do
  let start := (← get).here
  advance
  let value ← expr
  let closing ← expect .semicolon
  return .throws value ⟨start, closing.span.stop⟩

def ifStmt : Parser Stmt := do
  let start := (← get).here
  advance
  let condition ← parenthesized
  let whenTrue ← governed nested
  if (← get).atWord "else" then
    advance
    let whenFalse ← governed nested
    return .ifElse condition whenTrue (some whenFalse) ((← get).since start)
  else return .ifElse condition whenTrue none ((← get).since start)

def assertStmt : Parser Stmt := do
  let start := (← get).here
  advance
  let condition ← expr
  let message ←
    if (← get).atKind .colon then
      advance
      some <$> expr
    else pure none
  let closing ← expect .semicolon
  return .assert condition message ⟨start, closing.span.stop⟩

def whileStmt : Parser Stmt := do
  let start := (← get).here
  advance
  let condition ← parenthesized
  let body ← governed nested
  return .while condition body ((← get).since start)

def catchStep (_ : Unit) : Parser (Option Unit) := do
  if (← get).atWord "catch" then
    advance
    skipGroup .openParen .closeParen
    skipGroup .openBrace .closeBrace
    return some ()
  else return none

/-- Skips what follows the keyword of a statement that is kept only in outline. -/
def skipOutlined (keyword : String) : Parser Unit := do
  if keyword = "for" then
    skipGroup .openParen .closeParen
    discard (governed nested)
  else if keyword = "switch" ∨ keyword = "synchronized" then
    skipGroup .openParen .closeParen
    skipGroup .openBrace .closeBrace
  else if keyword = "do" then
    discard (governed nested)
    if (← get).atWord "while" then
      advance
      skipGroup .openParen .closeParen
    discard (expect .semicolon)
  else if keyword = "try" then
    skipGroup .openParen .closeParen
    skipGroup .openBrace .closeBrace
    iterate catchStep ()
    if (← get).atWord "finally" then
      advance
      skipGroup .openBrace .closeBrace
  else
    -- The others end at their semicolon.
    skipWhile fun c => !c.atKind .semicolon && !c.atKind .closeBrace
    discard (expect .semicolon)

/-- The keywords of statements that are kept only in outline. -/
def outlinedKeywords : List String :=
  ["for", "do", "switch", "try", "synchronized", "break", "continue", "yield"]

def outlinedStmt (keyword : String) : Parser Stmt := do
  let start := (← get).here
  advance
  skipOutlined nested keyword
  return .skipped keyword ((← get).since start)

/-- Reads the type and the name of a local variable if `=` or `;` follows. -/
def localHead? : Parser (Option (TypeRef × Token)) := do
  variableModifiers
  match ← typeRef? with
  | none => return none
  | some type =>
    if (← get).atKind .ident then
      let name ← expect .ident
      let c ← get
      if c.atKind .assign || c.atKind .semicolon then return some (type, name)
      else return none
    else return none

/-- Reads the declaration of a local variable if one stands here; otherwise
reads nothing. -/
def localStmt? : Parser (Option Stmt) := do
  let before ← get
  match ← localHead? with
  | none =>
    -- Types and expressions begin alike, so reading starts over.
    set before
    return none
  | some (type, name) =>
    let init ←
      if (← get).atKind .assign then
        advance
        some <$> expr
      else pure none
    let closing ← expect .semicolon
    return some (.local type name.text name.span init ⟨before.here, closing.span.stop⟩)

def exprStmt : Parser Stmt := do
  let start := (← get).here
  let value ← expr
  let closing ← expect .semicolon
  return .expr value ⟨start, max closing.span.stop value.span.stop⟩

/-- Reads a statement; there is none at the end of the text. -/
def stmtOf : Parser (Option Stmt) := do
  let c ← get
  if c.atEnd then return none
  else if c.atKind .semicolon then
    advance
    return some (.empty c.place)
  else if c.atKind .openBrace then
    let block ← blockOf nested
    return some block.toStmt
  else
    let word := c.word
    if word = "return" then some <$> returnStmt
    else if word = "throw" then some <$> throwStmt
    else if word = "if" then some <$> ifStmt nested
    else if word = "assert" then some <$> assertStmt
    else if word = "while" then some <$> whileStmt nested
    else if outlinedKeywords.contains word then some <$> outlinedStmt nested word
    else
      -- What is no declaration is taken for an expression.
      match ← localStmt? with
      | some statement => return some statement
      | none => some <$> exprStmt

end Nesting

/-- Reads statements that nest less than `depth` deep. -/
def stmtWithin : Nat → Parser (Option Stmt)
  | 0 => pure none
  | depth + 1 => stmtOf (stmtWithin depth)

/-- Reads a statement; there is none at the end of the text. -/
def stmt? : Parser (Option Stmt) := do
  stmtWithin ((← get).left + 1)

def block : Parser Block := blockOf stmt?

end Parser
end MethodContracts.Source
