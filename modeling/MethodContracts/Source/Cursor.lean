import MethodContracts.Source.Token

/-!
# Reading tokens

A parser runs over a cursor: the tokens that are left, the end of the last
token read, and the errors found so far. Reading never fails. What is missing
is reported, and a placeholder takes its place.

Repetition is bounded by the number of tokens left. Every repeated step that
goes on reads a token, so the bound is never what ends a repetition.
-/
namespace MethodContracts.Source

/-- What a parser wanted to see. -/
inductive Wanted where
  | token (kind : TokenKind)
  | semicolonOrBody
  | typeDeclaration
  | methodDeclaration
  | parameter
  | statement
  | expression
  | typeAfter (keyword : String)
deriving DecidableEq, Repr

/-- What is wrong with a source text. -/
inductive Problem where
  | expected (wanted : Wanted)
  /-- Something follows the one method that was asked for. -/
  | trailingInput
deriving DecidableEq, Repr

def TokenKind.display : TokenKind → String
  | .ident => "identifier"
  | .openBrace => "`\x7b`"
  | .closeBrace => "`\x7d`"
  | .openParen => "`(`"
  | .closeParen => "`)`"
  | .openBracket => "`[`"
  | .closeBracket => "`]`"
  | .semicolon => "`;`"
  | .colon => "`:`"
  | .atSign => "`@`"
  | _ => "token"

def Wanted.display : Wanted → String
  | .token kind => kind.display
  | .semicolonOrBody => "`;` or method body"
  | .typeDeclaration => "type declaration"
  | .methodDeclaration => "method declaration"
  | .parameter => "parameter"
  | .statement => "statement"
  | .expression => "expression"
  | .typeAfter keyword => s!"type after `{keyword}`"

def Problem.message : Problem → String
  | .expected wanted => "expected " ++ wanted.display
  | .trailingInput => "unexpected input after method declaration"

/-- A problem and its place. -/
structure SyntaxError where
  problem : Problem
  span : Span
deriving DecidableEq, Repr

def SyntaxError.message (error : SyntaxError) : String := error.problem.message

structure Cursor where
  /-- The tokens that are left. -/
  rest : List Token
  /-- The end of the last token read; zero before the first. -/
  lastEnd : Nat
  textEnd : Nat
  /-- The errors found so far, in the order they were found. -/
  errors : List SyntaxError
deriving DecidableEq, Repr

namespace Cursor

/-- A cursor before the first token. -/
def start (tokens : List Token) (textEnd : Nat) : Cursor := ⟨tokens, 0, textEnd, []⟩

def left (c : Cursor) : Nat := c.rest.length

def atEnd (c : Cursor) : Bool := c.rest.isEmpty

def kind? (c : Cursor) : Option TokenKind := c.rest.head?.map (·.kind)

def atKind (c : Cursor) (kind : TokenKind) : Bool := c.kind? == some kind

/-- Whether the token `n` places after the next one is of this kind. -/
def atNth (c : Cursor) (n : Nat) (kind : TokenKind) : Bool :=
  (c.rest[n]?).map (·.kind) == some kind

/-- Whether the token `n` places after the next one is this word. -/
def nthWord (c : Cursor) (n : Nat) (word : String) : Bool :=
  match c.rest[n]? with
  | some token => token.kind == .ident && token.text == word
  | none => false

def atWord (c : Cursor) (word : String) : Bool := c.nthWord 0 word

/-- The text of the next token if it is a word, and nothing otherwise. -/
def word (c : Cursor) : String :=
  match c.rest with
  | token :: _ => if token.kind = .ident then token.text else ""
  | [] => ""

/-- Where the next token starts, or the end of the text. -/
def here (c : Cursor) : Nat :=
  match c.rest with
  | token :: _ => token.span.start
  | [] => c.textEnd

/-- The place of the next token, or the empty place at the end of the text. -/
def place (c : Cursor) : Span :=
  match c.rest with
  | token :: _ => token.span
  | [] => .point c.textEnd

/-- Past the next token. -/
def next (c : Cursor) : Cursor :=
  match c.rest with
  | token :: rest => { c with rest := rest, lastEnd := token.span.stop }
  | [] => c

/-- With one more error, at the next token. -/
def report (c : Cursor) (wanted : Wanted) : Cursor :=
  { c with errors := c.errors ++ [⟨.expected wanted, c.place⟩] }

/-- The span from `start` to the end of the last token read, if that comes later. -/
def since (c : Cursor) (start : Nat) : Span := ⟨start, max c.lastEnd start⟩

end Cursor

/-- Reads from a cursor and moves it. -/
abbrev Parser := StateM Cursor

namespace Parser

/-- Reads the next token, if there is one. -/
def advance? : Parser (Option Token) := fun c => (c.rest.head?, c.next)

def advance : Parser Unit := fun c => ((), c.next)

def advanceBy : Nat → Parser Unit
  | 0 => pure ()
  | count + 1 => do
    advance
    advanceBy count

/-- Reports that something else was wanted at the next token. -/
def report (wanted : Wanted) : Parser Unit := fun c => ((), c.report wanted)

/-- Reads a token of this kind. Where another one stands nothing is read, the
error names what was wanted, and an empty token takes the place. -/
def expectAs (kind : TokenKind) (wanted : Wanted) : Parser Token := fun c =>
  match c.rest with
  | token :: _ =>
    if token.kind = kind then (token, c.next)
    else (⟨kind, "", .point c.here⟩, c.report wanted)
  | [] => (⟨kind, "", .point c.here⟩, c.report wanted)

/-- Reads a token of this kind. -/
def expect (kind : TokenKind) : Parser Token := expectAs kind (.token kind)

def skip (kind : TokenKind) : Parser Unit := fun c => ((), if c.atKind kind then c.next else c)

def skipWord (word : String) : Parser Unit := fun c => ((), if c.atWord word then c.next else c)

/-- Repeats a step until it declines, at most `limit` times. -/
def iterateWithin (step : α → Parser (Option α)) : Nat → α → Parser α
  | 0, value => pure value
  | limit + 1, value => do
    match ← step value with
    | none => pure value
    | some value => iterateWithin step limit value

/-- Repeats a step until it declines. -/
def iterate (step : α → Parser (Option α)) (value : α) : Parser α := do
  iterateWithin step (← get).left value

/-- Collects what a step yields until it declines, at most `limit` times. -/
def collectWithin (step : Parser (Option (List α))) : Nat → Parser (List α)
  | 0 => pure []
  | limit + 1 => do
    match ← step with
    | none => pure []
    | some values => return values ++ (← collectWithin step limit)

/-- Collects what a step yields until it declines. -/
def collect (step : Parser (Option (List α))) : Parser (List α) := do
  collectWithin step (← get).left

/-- Skips one token if `go` holds of the cursor. -/
def skipStep (go : Cursor → Bool) (_ : Unit) : Parser (Option Unit) := do
  let c ← get
  if c.atEnd || !go c then return none
  advance
  return some ()

/-- Skips tokens while the cursor is before the end and `go` holds of it. -/
def skipWhile (go : Cursor → Bool) : Parser Unit := iterate (skipStep go) ()

end Parser
end MethodContracts.Source
