import MethodContracts.Proofs.Source.Lookahead
import MethodContracts.Source.Parse

/-!
# Ordered formulas are read back

From the tokens of an ordered formula the parser reads that formula and nothing else, as
long as what follows can neither be a further operator of the same operand nor type
arguments.
-/
namespace MethodContracts.Source

namespace Formula

variable {t : Formula} {tokens : List Token}

theorem Spells.orderly_word {word : String} (isWord : t.spellings = [(.ident, word)])
    (spells : t.Spells tokens) (notNew : word ≠ "new") (notPrimitive : word ∉ primitiveTypes)
    {rest : List Token} (operator : Orderly .operator rest) :
    Orderly .operand (tokens ++ rest) := by
  obtain ⟨token, rfl, isIdent, text⟩ := spells.single isWord
  exact .word isIdent (text ▸ notNew) (text ▸ notPrimitive) operator

theorem Spells.orderly_literal {kind : TokenKind} {text : String}
    (isLiteral : t.spellings = [(kind, text)]) (spells : t.Spells tokens)
    (literal : kind ∈ [TokenKind.number, .string, .char]) {rest : List Token}
    (operator : Orderly .operator rest) : Orderly .operand (tokens ++ rest) := by
  obtain ⟨token, rfl, isKind, -⟩ := spells.single isLiteral
  exact .literal (isKind ▸ literal) operator

/-- The tokens of a formula, and then those behind an operand, are orderly. -/
theorem Spells.orderly (spells : t.Spells tokens) (plain : t.Plain) {rest : List Token}
    (operator : Orderly .operator rest) : Orderly .operand (tokens ++ rest) := by
  induction t generalizing tokens rest with
  | name word =>
    obtain ⟨notReserved, notPrimitive⟩ := plain
    have notNew : word ≠ "new" := fun same => notReserved (by simp [same, reserved])
    exact spells.orderly_word rfl notNew notPrimitive operator
  | bool value =>
    cases value <;> exact spells.orderly_word rfl (by decide) (by decide) operator
  | null | this => exact spells.orderly_word rfl (by decide) (by decide) operator
  | number | string | char => exact spells.orderly_literal rfl (by decide) operator
  | paren inner ih =>
    obtain ⟨opening, inside, closing, rfl, isOpening, inner, isClosing⟩ := spells.paren
    have closed := Orderly.closing (Token.kind_of_spelling isClosing) operator
    have within := ih inner plain closed
    rw [List.cons_append, List.append_assoc]
    exact .opening (Token.kind_of_spelling isOpening) within
  | signed sign operand ih =>
    obtain ⟨first, second, rfl, isSign, operand⟩ := spells.signed
    exact .sign sign (Token.kind_of_spelling isSign) (ih operand plain operator)
  | binary op left right ihLeft ihRight =>
    -- From the back: the right operand is orderly, so the operator before it is, and then the left.
    obtain ⟨first, token, second, rfl, isLeft, isOperator, isRight⟩ := spells.binary
    have joins : token.kind.joins = true := Token.kind_of_spelling isOperator ▸ op.joins_kind
    have further := Orderly.joining joins (ihRight isRight plain.2 operator)
    rw [List.append_assoc]
    exact ihLeft isLeft plain.1 further
  | instanceOf operand type ih =>
    obtain ⟨first, word, last, rfl, operand, isWord, isTest, isType, text⟩ := spells.instanceOf
    have notFinal : last.text ≠ "final" := by
      intro isFinal
      apply plain.2
      rw [← text, isFinal]
      decide
    have tested := Orderly.test isWord isTest (.type isType notFinal operator)
    rw [List.append_assoc]
    exact ih operand plain.1 tested
  | conditional condition whenTrue whenFalse ihCondition ihTrue ihFalse =>
    obtain ⟨first, question, second, colon, third, rfl, isCondition, isQuestion, isTrue, isColon,
      isFalse⟩ := spells.conditional
    have joinsColon : colon.kind.joins = true := by rw [Token.kind_of_spelling isColon]; rfl
    have joinsQuestion : question.kind.joins = true := by
      rw [Token.kind_of_spelling isQuestion]
      rfl
    have atColon := Orderly.joining joinsColon (ihFalse isFalse plain.2.2 operator)
    have atQuestion := Orderly.joining joinsQuestion (ihTrue isTrue plain.2.1 atColon)
    simp only [List.append_assoc, List.cons_append] at atQuestion ⊢
    exact ihCondition isCondition plain.1 atQuestion

end Formula

/-- Whether a form takes in a whole formula. -/
def Form.Admits : Form → Formula → Prop
  | .assignment, _ | .conditional, _ => True
  | .binary minimum, t => minimum ≤ t.strength ∧ 0 < t.strength
  | .unary, t => t.strength = Formula.tightest

/-- The first token is of this kind. -/
def StartsWith (kind : TokenKind) (tokens : List Token) : Prop :=
  tokens.head?.map (·.kind) = some kind

/-- Whether a form ends before these tokens. -/
def Form.Ends : Form → List Token → Prop
  | .assignment, tokens | .conditional, tokens => Weaker 0 tokens ∧ ¬StartsWith .question tokens
  | .binary minimum, tokens => Weaker minimum tokens
  | .unary, _ => True

/-- The cursor is at a formula, and what follows does not add to its last token. -/
structure Cursor.At (c : Cursor) (t : Formula) (rest : List Token) : Prop where
  plain : t.Plain
  ordered : t.Ordered
  spells : ∃ tokens, t.Spells tokens ∧ c.rest = tokens ++ rest
  operator : Orderly .operator rest
  noArguments : t.EndsInType → ¬StartsWith .less rest

namespace Cursor.At

variable {c : Cursor} {rest : List Token}

/-- A cursor at an operator with its operands is at the left one, and behind the operator is the
right one. -/
theorem binary {op : BinaryOp} {left right : Formula} (atIt : c.At (.binary op left right) rest) :
    ∃ token others, token.kind = op.kind ∧ c.At left (token :: others) ∧
      op.strength ≤ left.strength ∧ op.strength < right.strength ∧ rest.length ≤ others.length ∧
      ∀ after : Cursor, after.rest = others → after.At right rest := by
  obtain ⟨tokens, spells, found⟩ := atIt.spells
  obtain ⟨first, token, second, rfl, isLeft, isOperator, isRight⟩ := spells.binary
  obtain ⟨leftOrdered, rightOrdered, leftStrong, rightStrong, notTest⟩ := atIt.ordered
  have isKind : token.kind = op.kind := Token.kind_of_spelling isOperator
  have split : c.rest = first ++ token :: (second ++ rest) := by
    rw [found, List.append_assoc, List.cons_append]
  have further : Orderly .operator (token :: (second ++ rest)) :=
    .joining (isKind ▸ op.joins_kind) (isRight.orderly atIt.plain.2 atIt.operator)
  -- The operator could only be taken for type arguments behind a test, which it does not follow.
  have noArguments : left.EndsInType → ¬StartsWith .less (token :: (second ++ rest)) := by
    intro ends isLess
    have same : op = .less := by
      simp only [StartsWith, List.head?_cons, Option.map_some, isKind] at isLess
      cases op <;> cases isLess
      rfl
    subst same
    exact Formula.not_endsInType_left leftOrdered leftStrong (notTest rfl) ends
  have leftAt : c.At left (token :: (second ++ rest)) :=
    ⟨atIt.plain.1, leftOrdered, ⟨first, isLeft, split⟩, further, noArguments⟩
  refine ⟨token, second ++ rest, isKind, leftAt, leftStrong, rightStrong, by simp, ?_⟩
  intro after atRight
  exact ⟨atIt.plain.2, rightOrdered, ⟨second, isRight, atRight⟩, atIt.operator, atIt.noArguments⟩

/-- A cursor at a test for a type is at the operand, and behind it stand a word and a type. -/
theorem instanceOf {operand : Formula} {type : String}
    (atIt : c.At (.instanceOf operand type) rest) :
    ∃ word last, word.kind = .ident ∧ word.text = "instanceof" ∧ last.kind = .ident ∧
      last.text = type ∧ last.text ≠ "final" ∧ c.At operand (word :: last :: rest) ∧
      BinaryOp.instanceOfStrength ≤ operand.strength := by
  obtain ⟨tokens, spells, found⟩ := atIt.spells
  obtain ⟨first, word, last, rfl, isOperand, isWord, isTest, isType, text⟩ := spells.instanceOf
  obtain ⟨ordered, operandStrong⟩ := atIt.ordered
  have notFinal : last.text ≠ "final" := by
    intro isFinal
    apply atIt.plain.2
    rw [← text, isFinal]
    decide
  have split : c.rest = first ++ word :: last :: rest := by
    rw [found, List.append_assoc]
    rfl
  have further : Orderly .operator (word :: last :: rest) :=
    .test isWord isTest (.type isType notFinal atIt.operator)
  have operandAt : c.At operand (word :: last :: rest) :=
    ⟨atIt.plain.1, ordered, ⟨first, isOperand, split⟩, further, fun _ => by
      simp [StartsWith, isWord]⟩
  exact ⟨word, last, isWord, isTest, isType, text, notFinal, operandAt, operandStrong⟩

/-- A cursor at a conditional is at the condition, and behind the question mark and the colon are
the branches. -/
theorem conditional {condition whenTrue whenFalse : Formula}
    (atIt : c.At (.conditional condition whenTrue whenFalse) rest) :
    ∃ question colon afterQuestion afterColon,
      question.spelling = TokenKind.question.spelling ∧
      colon.spelling = TokenKind.colon.spelling ∧
      c.At condition (question :: afterQuestion) ∧ 0 < condition.strength ∧
      (∀ after : Cursor, after.rest = afterQuestion → after.At whenTrue (colon :: afterColon)) ∧
      ∀ after : Cursor, after.rest = afterColon → after.At whenFalse rest := by
  obtain ⟨tokens, spells, found⟩ := atIt.spells
  obtain ⟨first, question, second, colon, third, rfl, isCondition, isQuestion, isTrue, isColon,
    isFalse⟩ := spells.conditional
  obtain ⟨plainCondition, plainTrue, plainFalse⟩ := atIt.plain
  obtain ⟨orderedCondition, orderedTrue, orderedFalse, positive⟩ := atIt.ordered
  have questionKind : question.kind = .question := Token.kind_of_spelling isQuestion
  have colonKind : colon.kind = .colon := Token.kind_of_spelling isColon
  have split : c.rest = first ++ question :: (second ++ colon :: (third ++ rest)) := by
    simpa using found
  -- From the back, as the tokens of each part are orderly in front of those behind it.
  have atFalse : Orderly .operand (third ++ rest) := isFalse.orderly plainFalse atIt.operator
  have atColon : Orderly .operator (colon :: (third ++ rest)) :=
    .joining (by rw [colonKind]; rfl) atFalse
  have atTrue : Orderly .operand (second ++ colon :: (third ++ rest)) :=
    isTrue.orderly plainTrue atColon
  have atQuestion : Orderly .operator (question :: (second ++ colon :: (third ++ rest))) :=
    .joining (by rw [questionKind]; rfl) atTrue
  refine ⟨question, colon, second ++ colon :: (third ++ rest), third ++ rest, isQuestion, isColon,
    ⟨plainCondition, orderedCondition, ⟨first, isCondition, split⟩, atQuestion, fun _ => by
      simp [StartsWith, questionKind]⟩, positive, fun after atTrue => ?_, fun after atFalse => ?_⟩
  · exact ⟨plainTrue, orderedTrue, ⟨second, isTrue, atTrue⟩, atColon, fun _ => by
      simp [StartsWith, colonKind]⟩
  · exact ⟨plainFalse, orderedFalse, ⟨third, isFalse, atFalse⟩, atIt.operator, atIt.noArguments⟩

end Cursor.At

namespace Parser

/-- The parser reads this formula without an error and leaves these tokens. -/
structure Reads (parser : Parser Expr) (t : Formula) (c : Cursor) (rest : List Token) : Prop where
  formula : (parser c).1.formula? = some t
  rest : (parser c).2.rest = rest
  errors : (parser c).2.errors = c.errors

/-- At every form, the reader reads the formulas of at most so many tokens. -/
def Reader (nested : Form → Parser Expr) (bound : Nat) : Prop :=
  ∀ form t c rest, Cursor.At c t rest → form.Admits t → form.Ends rest →
    t.spellings.length ≤ bound → Reads (nested form) t c rest

section Forms

variable {nested : Form → Parser Expr} {c : Cursor} {t : Formula} {rest : List Token}

private theorem unary_eq_primary (noCast : c.atKind .openParen = true → cast? nested c = (none, c))
    (noSign : c.kind?.bind TokenKind.prefixedOp? = none)
    (operator : Orderly .operator (primary nested c).2.rest) :
    unary nested c = primary nested c := by
  have postfixed_eq : postfixed nested c = primary nested c := by
    rw [postfixed, run_bind, postfixed_declines nested _ operator]
    rfl
  have signed_eq : signed nested c = primary nested c := by
    rw [signed, run_bind, run_get, noSign]
    exact postfixed_eq
  rw [unary, run_bind, run_get]
  cases atOpening : c.atKind .openParen with
  | false => exact signed_eq
  | true =>
    simp only [run_bind, noCast atOpening, ite_true]
    exact signed_eq

theorem atWord_eq {token : Token} (found : c.rest = token :: rest) (word : String) :
    c.atWord word = (token.kind == .ident && token.text == word) := by
  simp [Cursor.atWord, Cursor.nthWord, found]

/-- The expression that a word or a literal is by itself. -/
def atomExpr (token : Token) : Expr :=
  match token.kind with
  | .number => .number token.text token.span
  | .string => .string token.text token.span
  | .char => .char token.text token.span
  | _ => wordExpr token

private theorem primary_atom {token : Token} (found : c.rest = token :: rest)
    (isAtom : token.kind ∈ [.ident, .number, .string, .char])
    (notNew : token.kind = .ident → token.text ≠ "new") :
    primary nested c = (atomExpr token, c.next) := by
  simp only [List.mem_cons, List.not_mem_nil, or_false] at isAtom
  rw [primary, run_bind, run_get]
  -- A word may begin `new`; literals are what they are.
  rcases isAtom with isKind | isKind | isKind | isKind
  · have noNew : c.atWord "new" = false := by simp [atWord_eq found, notNew isKind]
    simp only [found, isKind, atomExpr, noNew]
    rfl
  all_goals
    simp only [found, isKind, atomExpr]
    rfl

/-- A formula of one token is read as an operand. -/
private theorem atom_reads {kind : TokenKind} {text : String} (atIt : c.At t rest)
    (spelled : t.spellings = [(kind, text)]) (isAtom : kind ∈ [.ident, .number, .string, .char])
    (notNew : kind = .ident → text ≠ "new")
    (formula : ∀ token : Token, token.kind = kind → token.text = text →
      (atomExpr token).formula? = some t) : Reads (unary nested) t c rest := by
  obtain ⟨tokens, spells, found⟩ := atIt.spells
  obtain ⟨token, rfl, isKind, same⟩ := spells.single spelled
  have single : c.rest = token :: rest := found
  have isPrimary : primary nested c = (atomExpr token, c.next) :=
    primary_atom single (isKind ▸ isAtom) (by rwa [isKind, same])
  have left : c.next.rest = rest := c.rest_next single
  -- A single word or literal is neither a parenthesis nor a sign.
  have kinds : c.atKind .openParen = false ∧ c.kind?.bind TokenKind.prefixedOp? = none := by
    simp only [Cursor.atKind, Cursor.kind?, single, List.head?_cons, Option.map_some, isKind]
    simp only [List.mem_cons, List.not_mem_nil, or_false] at isAtom
    rcases isAtom with rfl | rfl | rfl | rfl <;> exact ⟨rfl, rfl⟩
  have isUnary : unary nested c = (atomExpr token, c.next) := by
    rw [← isPrimary]
    refine unary_eq_primary (fun atOpening => ?_) kinds.2 ?_
    · rw [kinds.1] at atOpening
      cases atOpening
    · rw [isPrimary, left]
      exact atIt.operator
  constructor <;> rw [isUnary]
  · exact formula token isKind same
  · exact left
  · exact c.errors_next

private theorem name_reads {word : String} (atIt : c.At (.name word) rest) :
    Reads (unary nested) (.name word) c rest := by
  have notReserved := atIt.plain.1
  simp only [Formula.reserved, List.mem_cons, List.not_mem_nil, or_false, not_or] at notReserved
  obtain ⟨notTrue, notFalse, notNull, notThis, notNew, -, -⟩ := notReserved
  refine atom_reads atIt rfl (by decide) (fun _ => notNew) fun token isWord text => ?_
  simp only [atomExpr, isWord, wordExpr, text, notTrue, notFalse, notNull, notThis, ite_false,
    Expr.formula?]

private theorem paren_reads {bound : Nat} {inner : Formula} (reader : Reader nested bound)
    (atIt : c.At (.paren inner) rest) (short : (Formula.paren inner).spellings.length ≤ bound + 1) :
    Reads (unary nested) (.paren inner) c rest := by
  obtain ⟨tokens, spells, found⟩ := atIt.spells
  obtain ⟨opening, inside, closing, rfl, isOpening, within, isClosing⟩ := spells.paren
  have isOpening : opening.kind = .openParen := Token.kind_of_spelling isOpening
  have single : c.rest = opening :: (inside ++ closing :: rest) := by
    rw [found, List.cons_append, List.append_assoc]
    rfl
  have closed : Orderly .operator (closing :: rest) :=
    .closing (Token.kind_of_spelling isClosing) atIt.operator
  have notLess : ¬StartsWith .less (closing :: rest) := by
    simp [StartsWith, Token.kind_of_spelling isClosing]
  have notQuestion : ¬StartsWith .question (closing :: rest) := by
    simp [StartsWith, Token.kind_of_spelling isClosing]
  -- Behind the opening parenthesis the cursor is at the inner formula.
  have inner_at : c.next.At inner (closing :: rest) :=
    ⟨atIt.plain, atIt.ordered, ⟨inside, within, c.rest_next single⟩, closed, fun _ => notLess⟩
  have fewer : inner.spellings.length ≤ bound := by
    simp only [Formula.spellings, List.length_cons, List.length_append] at short
    omega
  have read := reader .assignment inner c.next _ inner_at trivial
    ⟨weaker_cons isClosing (by decide) rfl, notQuestion⟩ fewer
  have operand : Orderly .operand c.next.rest := by
    rw [c.rest_next single]
    exact within.orderly atIt.plain closed
  have isPrimary : primary nested c = (.paren (nested .assignment c.next).1
      ⟨opening.span.start, max closing.span.stop opening.span.stop⟩,
      (nested .assignment c.next).2.next) := by
    simp only [primary, run_bind, run_get, single, isOpening, run_advance,
      expect_eq read.rest (Token.kind_of_spelling isClosing)]
    rfl
  have left : (nested .assignment c.next).2.next.rest = rest := Cursor.rest_next read.rest
  -- A cast is tried first, and declined since a formula stands in the parentheses.
  have isUnary : unary nested c = primary nested c := by
    refine unary_eq_primary (fun _ => cast?_declines nested operand) ?_ ?_
    · simp [Cursor.kind?, single, isOpening, TokenKind.prefixedOp?]
    · rw [isPrimary, left]
      exact atIt.operator
  constructor <;> rw [isUnary, isPrimary]
  · simp only [Expr.formula?, read.formula, Option.map_some]
  · exact left
  · rw [Cursor.errors_next, read.errors, c.errors_next]

private theorem signed_reads {bound : Nat} {sign : Sign} {operand : Formula}
    (reader : Reader nested bound) (atIt : c.At (.signed sign operand) rest)
    (short : (Formula.signed sign operand).spellings.length ≤ bound + 1) :
    Reads (unary nested) (.signed sign operand) c rest := by
  obtain ⟨tokens, spells, found⟩ := atIt.spells
  obtain ⟨first, others, rfl, isSign, within⟩ := spells.signed
  have isSign : first.kind = sign.kind := Token.kind_of_spelling isSign
  obtain ⟨ordered, tight⟩ := atIt.ordered
  have single : c.rest = first :: (others ++ rest) := found
  -- Behind the sign the cursor is at the operand.
  have operand_at : c.next.At operand rest :=
    ⟨atIt.plain, ordered, ⟨others, within, c.rest_next single⟩, atIt.operator, atIt.noArguments⟩
  have fewer : operand.spellings.length ≤ bound := by
    simp only [Formula.spellings, List.length_cons] at short
    omega
  have read := reader .unary operand c.next rest operand_at tight trivial fewer
  have noParen : c.atKind .openParen = false := by
    simp only [Cursor.atKind, Cursor.kind?, single, List.head?_cons, Option.map_some, isSign]
    cases sign <;> rfl
  have isPrefixed : c.kind?.bind TokenKind.prefixedOp? = some sign.op := by
    simp only [Cursor.kind?, single, List.head?_cons, Option.map_some, isSign, Option.bind_some,
      sign.prefixedOp?_kind]
  have isUnary : unary nested c = (.unary sign.op (nested .unary c.next).1
      ⟨c.here, max (nested .unary c.next).1.span.stop c.here⟩, (nested .unary c.next).2) := by
    simp only [unary, signed, run_bind, run_get, noParen, Bool.false_eq_true, ite_false, isPrefixed]
    rfl
  constructor <;> rw [isUnary]
  · simp only [Expr.formula?, sign.sign?_op, read.formula, Option.bind_some, Option.map_some]
  · exact read.rest
  · rw [read.errors, c.errors_next]

private theorem unary_reads {bound : Nat} (reader : Reader nested bound) (atIt : c.At t rest)
    (tight : t.strength = Formula.tightest) (short : t.spellings.length ≤ bound + 1) :
    Reads (unary nested) t c rest := by
  cases t with
  | name word => exact name_reads atIt
  | bool value =>
    cases value <;> exact atom_reads atIt rfl (by decide) (by simp) fun token isKind text => by
      simp [atomExpr, isKind, wordExpr, text, Expr.formula?]
  | null | this | number | string | char =>
    exact atom_reads atIt rfl (by decide) (by simp) fun token isKind text => by
      simp [atomExpr, isKind, wordExpr, text, Expr.formula?]
  | paren inner => exact paren_reads reader atIt short
  | signed sign operand => exact signed_reads reader atIt short
  -- What is left holds together less strongly than a unary expression.
  | binary op left right => cases op <;> cases tight
  | instanceOf => cases tight
  | conditional => cases tight

variable (nested) in
/-- A weaker operator is left to whoever reads around. -/
theorem binaryStep_declines {minimum : Nat} (left : Expr) (weaker : Weaker minimum c.rest) :
    binaryStep nested minimum left c = (none, c) := by
  rw [binaryStep, run_bind, run_get]
  cases found : c.rest with
  | nil =>
    have noWord : c.atWord "instanceof" = false := by simp [Cursor.atWord, Cursor.nthWord, found]
    simp only [noWord, Cursor.kind?, found]
    rfl
  | cons token rest =>
    rw [found] at weaker
    -- Tests for a type are looked at before symbols.
    by_cases test : token.kind = .ident ∧ token.text = "instanceof"
    · have below : BinaryOp.instanceOfStrength < minimum :=
        weaker _ (by simp [operatorStrength?, test])
      simp [atWord_eq found, test, below, run_pure]
    · have noWord : c.atWord "instanceof" = false := by simpa [atWord_eq found] using test
      simp only [noWord, Cursor.kind?, found, List.head?_cons, Option.map_some, Option.bind_some,
        Bool.false_eq_true, ite_false]
      cases isOperator : token.kind.binaryOp? with
      | none => rfl
      | some op =>
        have below : op.strength < minimum :=
          weaker _ (by simp [operatorStrength?, test, isOperator])
        simp only [below, ite_true, run_pure]

variable (nested) in
theorem binaryStep_operator {minimum : Nat} {op : BinaryOp} {token : Token} (left : Expr)
    (found : c.rest = token :: rest) (isOperator : token.kind = op.kind)
    (le : minimum ≤ op.strength) :
    binaryStep nested minimum left c =
      (some (.binary op left (nested (.binary (op.strength + 1)) c.next).1
        (left.span.cover (nested (.binary (op.strength + 1)) c.next).1.span)),
        (nested (.binary (op.strength + 1)) c.next).2) := by
  have noWord : c.atWord "instanceof" = false := by
    rw [atWord_eq found, isOperator]
    cases op <;> rfl
  have isKind : c.kind?.bind TokenKind.binaryOp? = some op := by
    simp only [Cursor.kind?, found, List.head?_cons, Option.map_some, isOperator, Option.bind_some,
      op.binaryOp?_kind]
  rw [binaryStep, run_bind, run_get]
  simp only [noWord, isKind, Bool.false_eq_true, ite_false, Nat.not_lt.mpr le]
  rfl

/-- The word behind a type is no variable but the next test. -/
private theorem not_atVariable (orderly : Orderly .operator c.rest) :
    (c.atKind .ident && !c.atWord "instanceof") = false := by
  cases found : c.rest with
  | nil => simp [Cursor.atKind, Cursor.kind?, found]
  | cons token rest =>
    rw [found] at orderly
    rw [atWord_eq found]
    cases orderly with
    | closing is => simp [Cursor.atKind, Cursor.kind?, found, is]
    | test is isTest => simp [is, isTest]
    | joining is =>
      have noWord : token.kind ≠ .ident := by
        intro isWord
        rw [isWord] at is
        cases is
      simp [Cursor.atKind, Cursor.kind?, found, noWord]

variable (nested) in
private theorem binaryStep_instanceOf {minimum : Nat} {word last : Token} (left : Expr)
    (found : c.rest = word :: last :: rest) (isWord : word.kind = .ident)
    (isTest : word.text = "instanceof") (isType : last.kind = .ident)
    (notFinal : last.text ≠ "final") (operator : Orderly .operator rest)
    (noArguments : ¬StartsWith .less rest) (le : minimum ≤ BinaryOp.instanceOfStrength) :
    ∃ typeSpan span, binaryStep nested minimum left c =
      (some (.instanceOf left ⟨last.text, typeSpan⟩ span), c.next.next) := by
  have atType : c.next.rest = last :: rest := c.rest_next found
  have ended : c.next.next.rest = rest := c.next.rest_next atType
  have test : c.atWord "instanceof" = true := by
    rw [atWord_eq found, isWord, isTest]
    rfl
  have noFinal : c.next.atWord "final" = false := by
    rw [atWord_eq atType, isType]
    simpa using notFinal
  have noLess : c.next.next.atKind .less = false := by
    simpa [Cursor.atKind, Cursor.kind?, ended, StartsWith] using noArguments
  -- Behind the type stand neither its arguments nor a variable.
  have noVariable := not_atVariable (ended.symm ▸ operator : Orderly .operator c.next.next.rest)
  have type := typeRef?_word atType isType operator noLess
  refine ⟨⟨last.span.start, last.span.stop⟩,
    ⟨left.span.start, max c.next.next.lastEnd last.span.stop⟩, ?_⟩
  rw [binaryStep, run_bind, run_get]
  simp only [test, Nat.not_lt.mpr le, instanceOf, run_bind, run_advance, skipWord, noFinal,
    typeAfter, type, run_pure, run_get, noVariable, Bool.false_eq_true, ite_true, ite_false]

/-- Reading operators of at least `minimum` strength comes to the loop with this formula
on its left, before these tokens. -/
def Arrives (nested : Form → Parser Expr) (minimum : Nat) (t : Formula) (c : Cursor)
    (rest : List Token) : Prop :=
  ∃ expr after limit, expr.formula? = some t ∧ after.rest = rest ∧ after.errors = c.errors ∧
    rest.length ≤ limit ∧
    binary nested minimum c = iterateWithin (binaryStep nested minimum) limit expr after

theorem Arrives.of_unary {minimum : Nat} (read : Reads (unary nested) t c rest) :
    Arrives nested minimum t c rest :=
  ⟨_, _, _, read.formula, read.rest, read.errors, Nat.le_of_eq (by rw [← read.rest]; rfl), rfl⟩

theorem Arrives.reads {minimum : Nat} (arrives : Arrives nested minimum t c rest)
    (weaker : Weaker minimum rest) : Reads (binary nested minimum) t c rest := by
  obtain ⟨expr, after, limit, formula, left, errors, -, same⟩ := arrives
  rw [← left] at weaker
  have stops := iterateWithin_of_none (binaryStep_declines nested expr weaker) limit
  rw [stops] at same
  constructor <;> rw [same]
  · exact formula
  · exact left
  · exact errors

/-- Behind its left operand, the loop reads the operator and its right operand. -/
theorem Arrives.binary {minimum : Nat} {op : BinaryOp} {left right : Formula} {token : Token}
    {others : List Token} (arrives : Arrives nested minimum left c (token :: others))
    (isOperator : token.kind = op.kind) (strong : minimum ≤ op.strength)
    (read : ∀ after : Cursor, after.rest = others →
      Reads (nested (.binary (op.strength + 1))) right after rest)
    (shorter : rest.length ≤ others.length) :
    Arrives nested minimum (.binary op left right) c rest := by
  obtain ⟨expr, after, limit, formula, atOperator, errors, enough, same⟩ := arrives
  cases limit with
  -- The loop still counts the operator, so it has not run out of steps.
  | zero => cases enough
  | succ limit =>
    have right := read after.next (after.rest_next atOperator)
    have within : others.length ≤ limit := Nat.le_of_succ_le_succ enough
    have step := binaryStep_operator nested expr atOperator isOperator strong
    rw [iterateWithin, run_bind, step] at same
    refine ⟨.binary op expr _ _, _, limit, ?_, right.rest, ?_, Nat.le_trans shorter within, same⟩
    · simp only [Expr.formula?, formula, right.formula, Option.bind_some, Option.map_some]
    · rw [right.errors, after.errors_next, errors]

theorem Arrives.instanceOf {minimum : Nat} {operand : Formula} {word last : Token}
    (arrives : Arrives nested minimum operand c (word :: last :: rest))
    (isWord : word.kind = .ident) (isTest : word.text = "instanceof") (isType : last.kind = .ident)
    (notFinal : last.text ≠ "final") (operator : Orderly .operator rest)
    (noArguments : ¬StartsWith .less rest) (strong : minimum ≤ BinaryOp.instanceOfStrength) :
    Arrives nested minimum (.instanceOf operand last.text) c rest := by
  obtain ⟨expr, after, limit, formula, atTest, errors, enough, same⟩ := arrives
  cases limit with
  | zero => cases enough
  | succ limit =>
    obtain ⟨typeSpan, span, step⟩ := binaryStep_instanceOf nested expr atTest isWord
      isTest isType notFinal operator noArguments strong
    have within : (last :: rest).length ≤ limit := Nat.le_of_succ_le_succ enough
    have left : after.next.next.rest = rest := after.next.rest_next (after.rest_next atTest)
    rw [iterateWithin, run_bind, step] at same
    refine ⟨.instanceOf expr ⟨last.text, typeSpan⟩ span, after.next.next, limit, ?_, left, ?_,
      Nat.le_of_succ_le within, same⟩
    · simp only [Expr.formula?, formula, Option.map_some]
    · rw [Cursor.errors_next, Cursor.errors_next, errors]

private theorem binary_arrives {bound minimum : Nat} (reader : Reader nested bound)
    (atIt : c.At t rest) (strong : minimum ≤ t.strength) (positive : 0 < t.strength)
    (weaker : Weaker (t.strength + 1) rest) (short : t.spellings.length ≤ bound + 1) :
    Arrives nested minimum t c rest := by
  -- Along the left operands: what the loop has on its left grows by one operator at a time,
  -- and each right operand is left to the nested reader.
  induction t generalizing rest with
  | binary op left right ihLeft _ =>
    obtain ⟨token, others, isOperator, leftAt, leftStrong, rightStrong, shorter, rightAt⟩ :=
      atIt.binary
    have lengths : left.spellings.length + (right.spellings.length + 1) ≤ bound + 1 := by
      simpa only [Formula.spellings, List.length_append, List.length_cons] using short
    have leftPositive : 0 < left.strength := Nat.lt_of_lt_of_le positive leftStrong
    have leftWeaker : Weaker (left.strength + 1) (token :: others) :=
      weaker_operator isOperator (Nat.lt_succ_of_le leftStrong)
    have arrives := ihLeft leftAt (Nat.le_trans strong leftStrong) leftPositive leftWeaker
      (by omega)
    refine arrives.binary isOperator strong (fun after atRight => ?_) shorter
    have rightPositive : 0 < right.strength := Nat.lt_of_le_of_lt (Nat.zero_le _) rightStrong
    have leftLength := left.spellings_pos
    exact reader _ right after rest (rightAt after atRight) ⟨rightStrong, rightPositive⟩ weaker
      (by omega)
  | instanceOf operand type ih =>
    obtain ⟨word, last, isWord, isTest, isType, rfl, notFinal, operandAt, operandStrong⟩ :=
      atIt.instanceOf
    have lengths : operand.spellings.length + 2 ≤ bound + 1 := by
      simpa [Formula.spellings] using short
    have operandPositive : 0 < operand.strength := Nat.lt_of_lt_of_le positive operandStrong
    have operandWeaker : Weaker (operand.strength + 1) (word :: last :: rest) :=
      weaker_test isWord isTest (Nat.lt_succ_of_le operandStrong)
    have arrives := ih operandAt (Nat.le_trans strong operandStrong) operandPositive operandWeaker
      (by omega)
    exact arrives.instanceOf isWord isTest isType notFinal atIt.operator (atIt.noArguments trivial)
      strong
  | conditional => cases positive
  | _ => exact .of_unary (unary_reads reader atIt rfl short)

private theorem atKind_eq_false {kind : TokenKind} (found : c.rest = rest)
    (other : ¬StartsWith kind rest) : c.atKind kind = false := by
  subst found
  simpa [Cursor.atKind, Cursor.kind?, StartsWith] using other

theorem conditional_without_question (ended : (binary nested 0 c).2.atKind .question = false) :
    conditional nested c = binary nested 0 c := by
  rw [conditional, run_bind, run_bind, run_get]
  simp only [ended, Bool.false_eq_true, ite_false]
  rfl

/-- At a question mark two branches are read with a colon between them. -/
theorem conditional_at_question (atQuestion : (binary nested 0 c).2.atKind .question = true) :
    ∃ span, conditional nested c =
      let condition := binary nested 0 c
      let whenTrue := nested .assignment condition.2.next
      let whenFalse := nested .conditional (expect .colon whenTrue.2).2
      (.conditional condition.1 whenTrue.1 whenFalse.1 span, whenFalse.2) := by
  rw [conditional, run_bind, run_bind, run_get]
  simp only [atQuestion, ite_true]
  exact ⟨_, rfl⟩

theorem assignment_without_assign (declines : lambda? nested c = (none, c))
    (ended : (conditional nested c).2.atKind .assign = false) :
    assignment nested c = conditional nested c := by
  rw [assignment, run_bind, declines]
  simp only [run_bind, run_get, ended, Bool.false_eq_true, ite_false]
  rfl

/-- A formula that is no conditional is read by its operators alone. -/
private theorem conditional_reads_binary {bound : Nat} (reader : Reader nested bound)
    (atIt : c.At t rest)
    (positive : 0 < t.strength) (weaker : Weaker 0 rest) (noQuestion : ¬StartsWith .question rest)
    (short : t.spellings.length ≤ bound + 1) : Reads (conditional nested) t c rest := by
  have arrives := binary_arrives reader atIt (Nat.zero_le _) positive (weaker.mono (Nat.zero_le _))
    short
  have read := arrives.reads weaker
  have ended : (binary nested 0 c).2.atKind .question = false :=
    atKind_eq_false read.rest noQuestion
  constructor <;> rw [conditional_without_question ended]
  · exact read.formula
  · exact read.rest
  · exact read.errors

private theorem conditional_reads_branches {bound : Nat} {condition whenTrue whenFalse : Formula}
    (reader : Reader nested bound) (atIt : c.At (.conditional condition whenTrue whenFalse) rest)
    (weaker : Weaker 0 rest) (noQuestion : ¬StartsWith .question rest)
    (short : (Formula.conditional condition whenTrue whenFalse).spellings.length ≤ bound + 1) :
    Reads (conditional nested) (.conditional condition whenTrue whenFalse) c rest := by
  obtain ⟨question, colon, afterQuestion, afterColon, isQuestion, isColon, conditionAt, positive,
    trueAt, falseAt⟩ := atIt.conditional
  have colonKind : colon.kind = .colon := Token.kind_of_spelling isColon
  have lengths : condition.spellings.length + (whenTrue.spellings.length +
      (whenFalse.spellings.length + 1) + 1) ≤ bound + 1 := by
    simpa [Formula.spellings] using short
  -- Neither `?` nor `:` is an operator, so each part ends in front of them.
  have ends (bound : Nat) : Weaker bound (question :: afterQuestion) :=
    weaker_cons isQuestion (by decide) rfl
  have readCondition : Reads (binary nested 0) condition c (question :: afterQuestion) :=
    (binary_arrives reader conditionAt (Nat.zero_le _) positive (ends _) (by omega)).reads (ends 0)
  have readTrue (after : Cursor) (left : after.rest = afterQuestion) :
      Reads (nested .assignment) whenTrue after (colon :: afterColon) :=
    reader .assignment whenTrue after _ (trueAt after left) trivial
      ⟨weaker_cons isColon (by decide) rfl, by simp [StartsWith, colonKind]⟩ (by omega)
  have readFalse (after : Cursor) (left : after.rest = afterColon) :
      Reads (nested .conditional) whenFalse after rest :=
    reader .conditional whenFalse after rest (falseAt after left) trivial ⟨weaker, noQuestion⟩
      (by omega)
  -- Each part is read where the one before it ended.
  have isTrue := readTrue (binary nested 0 c).2.next (Cursor.rest_next readCondition.rest)
  have isFalse := readFalse (nested .assignment (binary nested 0 c).2.next).2.next
    (Cursor.rest_next isTrue.rest)
  have atQuestion : (binary nested 0 c).2.atKind .question = true :=
    Cursor.atKind_of_rest readCondition.rest (Token.kind_of_spelling isQuestion)
  obtain ⟨span, same⟩ := conditional_at_question atQuestion
  dsimp only at same
  rw [expect_eq isTrue.rest colonKind] at same
  constructor <;> rw [same]
  · simp only [Expr.formula?, readCondition.formula, isTrue.formula, isFalse.formula,
      Option.bind_some, Option.map_some]
  · exact isFalse.rest
  · rw [isFalse.errors, Cursor.errors_next, isTrue.errors, Cursor.errors_next,
      readCondition.errors]

private theorem conditional_reads {bound : Nat} (reader : Reader nested bound) (atIt : c.At t rest)
    (weaker : Weaker 0 rest) (noQuestion : ¬StartsWith .question rest)
    (short : t.spellings.length ≤ bound + 1) : Reads (conditional nested) t c rest := by
  cases t with
  | conditional condition whenTrue whenFalse =>
    exact conditional_reads_branches reader atIt weaker noQuestion short
  | binary op left right =>
    exact conditional_reads_binary reader atIt op.strength_pos weaker noQuestion short
  | _ => exact conditional_reads_binary reader atIt (Nat.succ_pos _) weaker noQuestion short

private theorem assignment_reads {bound : Nat} (reader : Reader nested bound) (atIt : c.At t rest)
    (weaker : Weaker 0 rest) (noQuestion : ¬StartsWith .question rest)
    (short : t.spellings.length ≤ bound + 1) : Reads (assignment nested) t c rest := by
  have read := conditional_reads reader atIt weaker noQuestion short
  obtain ⟨tokens, spells, found⟩ := atIt.spells
  have orderly : Orderly .operand c.rest := by
    rw [found]
    exact spells.orderly atIt.plain atIt.operator
  -- In a formula no `=` follows on an operand.
  have ended : (conditional nested c).2.atKind .assign = false := by
    have operator := atIt.operator
    rw [← read.rest] at operator
    exact Cursor.not_atKind operator rfl
  constructor <;> rw [assignment_without_assign (lambda?_declines nested orderly) ended]
  · exact read.formula
  · exact read.rest
  · exact read.errors

private theorem ofForm_reads {bound : Nat} (reader : Reader nested bound) :
    Reader (ofForm nested) (bound + 1) := by
  intro form t c rest atIt admits ends short
  cases form with
  | assignment => exact assignment_reads reader atIt ends.1 ends.2 short
  | conditional => exact conditional_reads reader atIt ends.1 ends.2 short
  | unary => exact unary_reads reader atIt admits short
  | binary minimum =>
    have weaker : Weaker (t.strength + 1) rest := ends.mono (Nat.le_succ_of_le admits.1)
    exact (binary_arrives reader atIt admits.1 admits.2 weaker short).reads ends

end Forms

/-- A reader of some depth reads every formula of so many tokens. -/
private theorem exprWithin_reads (depth : Nat) : Reader (exprWithin depth) depth := by
  induction depth with
  | zero =>
    -- No formula is without tokens.
    intro form t c rest _ _ _ short
    have positive := t.spellings_pos
    omega
  | succ depth ih => exact ofForm_reads ih

private theorem expr_reads {t : Formula} {c : Cursor} {rest : List Token} (atIt : c.At t rest)
    (weaker : Weaker 0 rest) (noQuestion : ¬StartsWith .question rest) : Reads expr t c rest := by
  obtain ⟨tokens, spells, found⟩ := atIt.spells
  -- The depth that the parser starts with is the number of tokens that are left.
  have short : t.spellings.length ≤ c.left + 1 := by
    rw [← spells.length_eq, Cursor.left, found, List.length_append]
    omega
  have read := exprWithin_reads (c.left + 1) .assignment t c rest atIt trivial ⟨weaker, noQuestion⟩
    short
  exact ⟨read.formula, read.rest, read.errors⟩

end Parser

/-- From a text that is written as an ordered formula, that formula is read. -/
theorem parseExpression_reads {t : Formula} (plain : t.Plain) (ordered : t.Ordered) {text : String}
    {offset : Nat} (written : t.Spells (tokens text offset)) :
    (parseExpression text offset).value.formula? = some t ∧
      (parseExpression text offset).errors = [] := by
  have atIt : (Cursor.ofText text offset).At t [] :=
    ⟨plain, ordered, ⟨_, written, (List.append_nil _).symm⟩, .done, fun _ => by simp [StartsWith]⟩
  have read := Parser.expr_reads atIt (fun _ next => by cases next) (by simp [StartsWith])
  exact ⟨read.formula, read.errors⟩

end MethodContracts.Source
