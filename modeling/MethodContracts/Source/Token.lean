import MethodContracts.Span

/-!
# Tokens

The smallest meaningful pieces of source text, each with its kind, its exact
text and its place.
-/
namespace MethodContracts.Source

inductive TokenKind where
  | ident
  | number
  | string
  | char
  | atSign
  | openBrace
  | closeBrace
  | openParen
  | closeParen
  | openBracket
  | closeBracket
  | semicolon
  | comma
  | dot
  | ellipsis
  | star
  | assign
  | equal
  | bang
  | notEqual
  | plus
  | increment
  | minus
  | decrement
  | slash
  | percent
  | less
  | lessEqual
  | greater
  | greaterEqual
  | amp
  | andAnd
  | pipe
  | orOr
  | caret
  | tilde
  | question
  | colon
  | methodRef
  | arrow
  /-- A character that begins no token. -/
  | unknown
deriving DecidableEq, Repr

structure Token where
  kind : TokenKind
  text : String
  span : Span
deriving DecidableEq, Repr

end MethodContracts.Source
