import MethodContracts.Proofs.Source.Tiling

/-!
# How tokens are spelled

The tokens of an operator or a delimiter all have the same text. Words, numbers, quoted
literals and unknown characters are the only tokens whose kind leaves the text open.
-/
namespace MethodContracts.Source

/-- The kind and the text of a token. -/
abbrev Spelling := TokenKind × String

def Token.spelling (token : Token) : Spelling := (token.kind, token.text)

/-- The text that all tokens of a kind share. -/
def TokenKind.symbol? : TokenKind → Option String
  | .ident | .number | .string | .char | .unknown => none
  | .atSign => some "@"
  | .openBrace => some "\x7b"
  | .closeBrace => some "\x7d"
  | .openParen => some "("
  | .closeParen => some ")"
  | .openBracket => some "["
  | .closeBracket => some "]"
  | .semicolon => some ";"
  | .comma => some ","
  | .dot => some "."
  | .ellipsis => some "..."
  | .star => some "*"
  | .assign => some "="
  | .equal => some "=="
  | .bang => some "!"
  | .notEqual => some "!="
  | .plus => some "+"
  | .increment => some "++"
  | .minus => some "-"
  | .decrement => some "--"
  | .slash => some "/"
  | .percent => some "%"
  | .less => some "<"
  | .lessEqual => some "<="
  | .greater => some ">"
  | .greaterEqual => some ">="
  | .amp => some "&"
  | .andAnd => some "&&"
  | .pipe => some "|"
  | .orOr => some "||"
  | .caret => some "^"
  | .tilde => some "~"
  | .question => some "?"
  | .colon => some ":"
  | .methodRef => some "::"
  | .arrow => some "->"

/-- How a token of a kind is spelled whose text is fixed. -/
def TokenKind.spelling (kind : TokenKind) : Spelling := (kind, kind.symbol?.getD "")

/-- The token has the text that its kind fixes. -/
def Token.Spelled (token : Token) : Prop :=
  ∀ symbol, token.kind.symbol? = some symbol → token.text = symbol

theorem Token.Spelled.spelling_eq {token : Token} (spelled : token.Spelled) {kind : TokenKind}
    {symbol : String} (isKind : token.kind = kind) (isFixed : kind.symbol? = some symbol) :
    token.spelling = kind.spelling := by
  subst isKind
  simp only [Token.spelling, TokenKind.spelling, spelled symbol isFixed, isFixed, Option.getD_some]

theorem Token.kind_of_spelling {token : Token} {kind : TokenKind}
    (spelled : token.spelling = kind.spelling) : token.kind = kind := congrArg Prod.fst spelled

/-- The lexeme has the text that its kind fixes. -/
def Lexeme.Spelled (found : Lexeme) : Prop :=
  ∀ symbol, found.kind.symbol? = some symbol → String.ofList found.text = symbol

private theorem wordLexeme_spelled (c : Char) (rest : List Char) : (wordLexeme c rest).Spelled := by
  intro symbol isFixed
  have varied : (wordLexeme c rest).kind.symbol? = none := by
    unfold wordLexeme
    split
    · rfl
    · split <;> rfl
  rw [varied] at isFixed
  cases isFixed

theorem lexeme_spelled (c : Char) (rest : List Char) : (lexeme c rest).Spelled := by
  unfold lexeme
  split
  -- Each symbol yields its own text; of words, numbers and quotes the kind fixes none.
  all_goals first
    | exact wordLexeme_spelled _ _
    | intro symbol isFixed
      cases isFixed
      try rfl

theorem Scans.spelled {offset : Nat} {cs : List Char} {tokens : List Token}
    (scans : Scans offset cs tokens) : ∀ token ∈ tokens, token.Spelled := by
  induction scans with
  | last => exact List.forall_mem_nil _
  | token _ _ ih => exact List.forall_mem_cons.mpr ⟨lexeme_spelled _ _, ih⟩

theorem tokens_spelled (text : String) (offset : Nat) :
    ∀ token ∈ tokens text offset, token.Spelled :=
  (tokens_scans text offset).spelled

end MethodContracts.Source
