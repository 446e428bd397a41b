import MethodContracts.Source.Token
import MethodContracts.Text.Blank
import MethodContracts.Text.Letter
import MethodContracts.Text.Position

/-!
# From text to tokens

A text is a sequence of gaps and lexemes in turn. A gap is white space, line
comments and block comments; a lexeme is as long as its class allows. Every
function here cuts its text in two and loses no character. Generic arguments
may nest, so two closing angle brackets are two tokens.
-/
namespace MethodContracts.Source

open Text

/-- Puts characters in front of the first part of a cut. -/
def keep (front : List Char) (cut : List Char × List Char) : List Char × List Char :=
  (front ++ cut.1, cut.2)

/-- Where a gap stands: between comments, in a line comment or in a block comment. -/
inductive GapPlace where
  | between
  | line
  | block
deriving DecidableEq, Repr

/-- The rest of a gap, and what follows it. A line comment ends with its line
feed; a block comment without an end takes the whole text. -/
def gapFrom : GapPlace → List Char → List Char × List Char
  | _, [] => ([], [])
  | .between, '/' :: '/' :: rest => keep ['/', '/'] (gapFrom .line rest)
  | .between, '/' :: '*' :: rest => keep ['/', '*'] (gapFrom .block rest)
  | .between, c :: rest => if isBlank c then keep [c] (gapFrom .between rest) else ([], c :: rest)
  | .line, c :: rest => keep [c] (gapFrom (if c = '\n' then .between else .line) rest)
  | .block, '*' :: '/' :: rest => keep ['*', '/'] (gapFrom .between rest)
  | .block, c :: rest => keep [c] (gapFrom .block rest)

/-- The gap at the start of a text, and what follows it. -/
def gap (cs : List Char) : List Char × List Char := gapFrom .between cs

/-- The rest of a quoted literal, and what follows it. It ends with the quote,
with a line feed or with the text; a backslash keeps the character after it. -/
def quotedRest (quote : Char) : List Char → List Char × List Char
  | [] => ([], [])
  | '\\' :: c :: rest => keep ['\\', c] (quotedRest quote rest)
  | c :: rest => if c = '\n' ∨ c = quote then ([c], rest) else keep [c] (quotedRest quote rest)

/-- The rest of a text block, and what follows it. It ends with three quotes or
with the text; a backslash keeps the character after it. -/
def blockRest : List Char → List Char × List Char
  | [] => ([], [])
  | '\\' :: c :: rest => keep ['\\', c] (blockRest rest)
  | '"' :: '"' :: '"' :: rest => (['"', '"', '"'], rest)
  | c :: rest => keep [c] (blockRest rest)

def isNumberPart (c : Char) : Bool := isAsciiAlphanumeric c || c == '_' || c == '.'

def isNameStart (c : Char) : Bool := isLetter c || c == '_' || c == '$'

def isNamePart (c : Char) : Bool := isLetterOrNumber c || c == '_' || c == '$'

/-- A token's kind, its characters, and the text after it. -/
structure Lexeme where
  kind : TokenKind
  text : List Char
  rest : List Char
deriving DecidableEq, Repr

/-- A lexeme whose length the first character fixes only in part. -/
def wordLexeme (c : Char) (rest : List Char) : Lexeme :=
  if isDigit c then ⟨.number, c :: rest.takeWhile isNumberPart, rest.dropWhile isNumberPart⟩
  else if isNameStart c then ⟨.ident, c :: rest.takeWhile isNamePart, rest.dropWhile isNamePart⟩
  else ⟨.unknown, [c], rest⟩

/-- The lexeme that starts with `c`. -/
def lexeme (c : Char) (rest : List Char) : Lexeme :=
  match c, rest with
  | '\x7b', rest => ⟨.openBrace, [c], rest⟩
  | '\x7d', rest => ⟨.closeBrace, [c], rest⟩
  | '(', rest => ⟨.openParen, [c], rest⟩
  | ')', rest => ⟨.closeParen, [c], rest⟩
  | '[', rest => ⟨.openBracket, [c], rest⟩
  | ']', rest => ⟨.closeBracket, [c], rest⟩
  | ';', rest => ⟨.semicolon, [c], rest⟩
  | ',', rest => ⟨.comma, [c], rest⟩
  | '.', '.' :: '.' :: rest => ⟨.ellipsis, ['.', '.', '.'], rest⟩
  | '.', rest => ⟨.dot, [c], rest⟩
  | '*', rest => ⟨.star, [c], rest⟩
  | '=', '=' :: rest => ⟨.equal, ['=', '='], rest⟩
  | '=', rest => ⟨.assign, [c], rest⟩
  | '!', '=' :: rest => ⟨.notEqual, ['!', '='], rest⟩
  | '!', rest => ⟨.bang, [c], rest⟩
  | '+', '+' :: rest => ⟨.increment, ['+', '+'], rest⟩
  | '+', rest => ⟨.plus, [c], rest⟩
  | '-', '-' :: rest => ⟨.decrement, ['-', '-'], rest⟩
  | '-', '>' :: rest => ⟨.arrow, ['-', '>'], rest⟩
  | '-', rest => ⟨.minus, [c], rest⟩
  | '/', rest => ⟨.slash, [c], rest⟩
  | '%', rest => ⟨.percent, [c], rest⟩
  | '<', '=' :: rest => ⟨.lessEqual, ['<', '='], rest⟩
  | '<', rest => ⟨.less, [c], rest⟩
  | '>', '=' :: rest => ⟨.greaterEqual, ['>', '='], rest⟩
  | '>', rest => ⟨.greater, [c], rest⟩
  | '&', '&' :: rest => ⟨.andAnd, ['&', '&'], rest⟩
  | '&', rest => ⟨.amp, [c], rest⟩
  | '|', '|' :: rest => ⟨.orOr, ['|', '|'], rest⟩
  | '|', rest => ⟨.pipe, [c], rest⟩
  | '^', rest => ⟨.caret, [c], rest⟩
  | '~', rest => ⟨.tilde, [c], rest⟩
  | '?', rest => ⟨.question, [c], rest⟩
  | ':', ':' :: rest => ⟨.methodRef, [':', ':'], rest⟩
  | ':', rest => ⟨.colon, [c], rest⟩
  | '@', rest => ⟨.atSign, [c], rest⟩
  -- A text block begins like an empty string, so it is looked for first.
  | '"', '"' :: '"' :: rest =>
    let (text, rest) := keep ['"', '"', '"'] (blockRest rest)
    ⟨.string, text, rest⟩
  | '"', rest =>
    let (text, rest) := keep [c] (quotedRest c rest)
    ⟨.string, text, rest⟩
  | '\'', rest =>
    let (text, rest) := keep [c] (quotedRest c rest)
    ⟨.char, text, rest⟩
  | c, rest => wordLexeme c rest

/-- The tokens of a text that starts at byte `offset`, at most `limit` of them. -/
def tokensWithin : Nat → Nat → List Char → List Token
  | 0, _, _ => []
  | limit + 1, offset, cs =>
    match gap cs with
    | (_, []) => []
    | (blank, c :: rest) =>
      let found := lexeme c rest
      let start := offset + byteLength blank
      let stop := start + byteLength found.text
      ⟨found.kind, String.ofList found.text, ⟨start, stop⟩⟩ ::
        tokensWithin limit stop found.rest

/-- The tokens of a text that starts at byte `offset`. Each takes a character,
so there are no more tokens than characters. -/
def tokens (text : String) (offset : Nat) : List Token :=
  tokensWithin text.toList.length offset text.toList

end MethodContracts.Source
