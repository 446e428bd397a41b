import MethodContracts.Proofs.Source.Reading

/-!
# What is read without errors

If no error is found and only words, literals, parentheses and operators are read, the
result is an ordered formula, and the tokens that were passed are its tokens. Tests for a
type are left out: a test may also take in a variable or the arguments of the type.
-/
namespace MethodContracts.Source

namespace Cursor

variable {c c' c'' : Cursor}

/-- Where no error is left in the end, none came in between. -/
theorem Before.errors_eq (first : c.Before c') (second : c'.Before c'')
    (same : c''.errors = c.errors) : c'.errors = c.errors ∧ c''.errors = c'.errors := by
  have longer := second.errors
  rw [same] at longer
  have middle : c'.errors = c.errors :=
    longer.eq_of_length_le first.errors.length_le
  exact ⟨middle, same.trans middle.symm⟩

/-- All tokens that are left have the texts that their kinds fix. -/
def Spelled (c : Cursor) : Prop := ∀ token ∈ c.rest, token.Spelled

theorem Spelled.later (spelled : c.Spelled) (before : c.Before c') : c'.Spelled :=
  fun token member => spelled token (before.rest.mem member)

end Cursor

namespace Parser

variable {nested : Form → Parser Expr} {c : Cursor} {t : Formula}

/-- Without an error the wanted token stands there and is read. -/
private theorem expect_of_errors {kind : TokenKind} (errors : (expect kind c).2.errors = c.errors) :
    ∃ token rest, c.rest = token :: rest ∧ token.kind = kind ∧ expect kind c = (token, c.next) := by
  rcases expectAs_cases kind (.token kind) c with read | missing
  · exact read
  · rw [expect, missing] at errors
    exact absurd errors (by simp [Cursor.report])

/-! ## Readings that are no formulas -/

/-- Whatever the cursor, what the parser yields has the property. -/
def Gives {α : Type} (parser : Parser α) (holds : α → Prop) : Prop :=
  ∀ c : Cursor, holds (parser c).1

section Gives

variable {α β : Type} {holds : α → Prop}

theorem Gives.pure {value : α} (valid : holds value) : Gives (Pure.pure value) holds :=
  fun _ => valid

theorem Gives.bind {parser : Parser β} {next : β → Parser α}
    (rest : ∀ value, Gives (next value) holds) : Gives (parser >>= next) holds :=
  fun _ => rest _ _

theorem Gives.ite {condition : Prop} [Decidable condition] {first second : Parser α}
    (whenTrue : Gives first holds) (whenFalse : Gives second holds) :
    Gives (if condition then first else second) holds := by
  split
  · exact whenTrue
  · exact whenFalse

end Gives

/-- A lambda was read. -/
def IsLambda (result : Option Expr) : Prop := ∃ span, result = some (.lambda span)

private theorem lambda?_cases (nested : Form → Parser Expr) (c : Cursor) :
    lambda? nested c = (none, c) ∨ IsLambda (lambda? nested c).1 := by
  rw [lambda?, run_bind, run_get]
  dsimp only
  cases c.lambdaParams? with
  | none => exact .inl rfl
  | some count =>
    have finish (_ : Unit) : Gives (do
        let after ← get
        return some (Expr.lambda (after.since c.here))) IsLambda := .bind fun _ => .pure ⟨_, rfl⟩
    have read : Gives (do
        advanceBy (count + 1)
        if (← get).atKind .openBrace then skipGroup .openBrace .closeBrace
        else discard (nested .assignment)
        return some (Expr.lambda ((← get).since c.here))) IsLambda :=
      .bind fun _ => .bind fun _ => .ite (.bind finish) (.bind finish)
    exact .inr (read c)

private theorem cast?_cases (nested : Form → Parser Expr) (c : Cursor) :
    cast? nested c = (none, c) ∨
      ∃ expr, (cast? nested c).1 = some expr ∧ expr.formula? = none := by
  simp only [cast?, run_bind, run_get, run_advance]
  cases (castType? c.next).1 with
  | none => exact .inl rfl
  | some type =>
    refine .inr ?_
    simp only [run_bind, run_advance]
    cases (lambda? nested (castType? c.next).2.next).1 <;> exact ⟨_, rfl, rfl⟩

private theorem newExpr_formula? (nested : Form → Parser Expr) (c : Cursor) :
    (newExpr nested c).1.formula? = none := by
  have gives : Gives (newExpr nested) (fun expr => expr.formula? = none) := by
    refine .bind fun keyword => .bind fun type => .bind fun _ => ?_
    have finish (arguments : List Expr) : Gives (do
        iterate dimensionStep ()
        skipGroup .openBrace .closeBrace
        let after ← get
        return Expr.new type arguments ⟨keyword.span.start, max after.lastEnd keyword.span.stop⟩)
        (fun expr => expr.formula? = none) := .bind fun _ => .bind fun _ => .bind fun _ => .pure rfl
    exact .ite (.bind fun _ => .bind finish) (.bind finish)
  exact gives c

/-- A postfix step declines where it is, or wraps what it got into no formula. -/
private theorem postfixedStep_cases (nested : Form → Parser Expr) (expr : Expr) (c : Cursor) :
    postfixedStep nested expr c = (none, c) ∨
      ∃ next, (postfixedStep nested expr c).1 = some next ∧ next.formula? = none := by
  rw [postfixedStep, run_bind, run_get]
  cases c.rest with
  | nil => exact .inl rfl
  | cons token rest =>
    dsimp only
    generalize token.kind = kind
    cases kind
    case dot => cases c.atNth 1 .ident <;> first | exact .inl rfl | exact .inr ⟨_, rfl, rfl⟩
    all_goals first | exact .inl rfl | exact .inr ⟨_, rfl, rfl⟩

private theorem iterateWithin_postfixedStep_none (nested : Form → Parser Expr) (limit : Nat)
    (expr : Expr) (c : Cursor) (noFormula : expr.formula? = none) :
    (iterateWithin (postfixedStep nested) limit expr c).1.formula? = none := by
  induction limit generalizing expr c with
  | zero => exact noFormula
  | succ limit ih =>
    rw [iterateWithin, run_bind]
    rcases postfixedStep_cases nested expr c with declines | ⟨next, read, wrapped⟩
    · rw [declines]
      exact noFormula
    · rw [read]
      exact ih next _ wrapped

/-- A postfix expression that is a formula is a primary one. -/
private theorem postfixed_eq_primary (formula : (postfixed nested c).1.formula? = some t) :
    postfixed nested c = primary nested c := by
  have run : postfixed nested c = iterateWithin (postfixedStep nested) (primary nested c).2.left
      (primary nested c).1 (primary nested c).2 := rfl
  rw [run] at formula ⊢
  clear run
  generalize (primary nested c).2.left = limit at formula ⊢
  cases limit with
  | zero => rfl
  | succ limit =>
    -- Had one step read on, nothing that comes out would be a formula.
    rcases postfixedStep_cases nested (primary nested c).1 (primary nested c).2 with
      declines | ⟨next, read, wrapped⟩
    · rw [iterateWithin_of_none declines]
      rfl
    · rw [iterateWithin, run_bind, read] at formula
      rw [iterateWithin_postfixedStep_none nested limit next _ wrapped] at formula
      cases formula

/-- A unary expression that is a formula is no cast. -/
private theorem unary_eq_signed (formula : (unary nested c).1.formula? = some t) :
    unary nested c = signed nested c := by
  rw [unary, run_bind, run_get] at formula ⊢
  dsimp only at formula ⊢
  split at formula
  next atOpening =>
    rw [if_pos atOpening, run_bind] at *
    rcases cast?_cases nested c with declines | ⟨expr, read, noFormula⟩
    · rw [declines]
    · rw [read] at formula
      have isFormula : expr.formula? = some t := formula
      rw [noFormula] at isFormula
      cases isFormula
  next notOpening => rw [if_neg notOpening]

/-- The formula is ordered and fits the form, its tokens stand between the cursors, and
an operator that the form takes does not follow. -/
structure Recognized (form : Form) (t : Formula) (c c' : Cursor) : Prop where
  ordered : t.Ordered
  admits : form.Admits t
  spells : ∃ tokens, t.Spells tokens ∧ c.rest = tokens ++ c'.rest
  weaker : ∀ minimum, form = .binary minimum → Weaker minimum c'.rest

/-- What the parser reads from the cursor without an error is recognized. -/
def Recognizes (parser : Parser Expr) (form : Form) (c : Cursor) : Prop :=
  ∀ t, (parser c).2.errors = c.errors → (parser c).1.formula? = some t →
    t.hasInstanceOf = false → Recognized form t c (parser c).2

/-- No operand is asked to hold together more strongly than a unary expression does. -/
def Attainable : Form → Prop
  | .binary minimum => minimum ≤ Formula.tightest
  | .assignment | .conditional | .unary => True

/-- At every such form and every cursor, the reader recognizes what it reads. -/
def Recognizer (nested : Form → Parser Expr) : Prop :=
  ∀ form (c : Cursor), Attainable form → c.Spelled → Recognizes (nested form) form c

theorem Recognizes.get {form : Form} {next : Cursor → Parser Expr}
    (rest : Recognizes (next c) form c) : Recognizes (get >>= next) form c := rest

theorem Recognizes.of_none {form : Form} {parser : Parser Expr}
    (noFormula : Gives parser fun expr => expr.formula? = none) : Recognizes parser form c := by
  intro t _ formula
  rw [noFormula c] at formula
  cases formula

/-- A formula of one token is recognized. -/
private theorem atom_recognizes {token : Token} {rest : List Token} {expr : Expr}
    (found : c.rest = token :: rest)
    (atom : ∀ t, expr.formula? = some t →
      t.Ordered ∧ t.strength = Formula.tightest ∧ t.spellings = [token.spelling]) :
    Recognizes (do advance; return expr) .unary c := by
  intro t _ formula _
  obtain ⟨ordered, tight, spelled⟩ := atom t formula
  refine ⟨ordered, tight, ⟨[token], spelled.symm, ?_⟩, fun _ isBinary => by cases isBinary⟩
  rw [found]
  exact congrArg (token :: ·) (c.rest_next found).symm

private theorem wordExpr_atom {token : Token} (isWord : token.kind = .ident)
    (formula : (wordExpr token).formula? = some t) :
    t.Ordered ∧ t.strength = Formula.tightest ∧ t.spellings = [token.spelling] := by
  have spelling : token.spelling = (.ident, token.text) := congrArg (·, token.text) isWord
  rw [spelling]
  unfold wordExpr at formula
  repeat' split at formula
  all_goals
    cases formula
    refine ⟨trivial, rfl, ?_⟩
    simp [Formula.spellings, *]

private theorem paren_recognizes {opening : Token} {rest : List Token}
    (moves : ∀ form, (nested form).Moves)
    (recognizer : Recognizer nested) (spelled : c.Spelled) (found : c.rest = opening :: rest)
    (isOpening : opening.kind = .openParen) (span : Token → Span) :
    Recognizes (do
      advance
      let inner ← nested .assignment
      let closing ← expect .closeParen
      return .paren inner (span closing)) .unary c := by
  intro t errors formula noTest
  obtain ⟨inner, isInner, rfl⟩ := Option.map_eq_some_iff.mp formula
  have within := c.before_next.trans (moves .assignment c.next)
  obtain ⟨innerErrors, lastErrors⟩ := within.errors_eq (expect_moves .closeParen _) errors
  obtain ⟨closing, others, atClosing, isClosing, read⟩ := expect_of_errors lastErrors
  have inside := recognizer .assignment c.next trivial (spelled.later c.before_next) inner
    (innerErrors.trans c.errors_next.symm) isInner noTest
  obtain ⟨tokens, spells, split⟩ := inside.spells
  -- The kinds of parentheses fix their texts.
  have openingSpelling := (spelled opening (by simp [found])).spelling_eq isOpening rfl
  have closingSpelling :=
    (spelled.later within closing (by simp [atClosing])).spelling_eq isClosing rfl
  have left : (expect .closeParen (nested .assignment c.next).2).2.rest = others := by
    rw [read]
    exact Cursor.rest_next atClosing
  refine ⟨inside.ordered, rfl, ⟨opening :: (tokens ++ [closing]), ?_, ?_⟩,
    fun _ isBinary => by cases isBinary⟩
  · simp only [Formula.Spells, Formula.spellings, List.map_cons, List.map_append, List.map_nil,
      openingSpelling, closingSpelling]
    rw [spells]
  · change c.rest = _ ++ (expect .closeParen (nested .assignment c.next).2).2.rest
    rw [left, found, ← c.rest_next found, split, atClosing]
    simp

private theorem primary_recognizes (moves : ∀ form, (nested form).Moves)
    (recognizer : Recognizer nested)
    (spelled : c.Spelled) : Recognizes (primary nested) .unary c := by
  refine Recognizes.get ?_
  split
  next => exact .of_none (.bind fun _ => .pure rfl)
  next token rest found =>
    split
    next isKind =>
      split
      next => exact .of_none (newExpr_formula? nested)
      next => exact atom_recognizes found fun t formula => wordExpr_atom isKind formula
    -- The three kinds of literals.
    iterate 3
      next isKind =>
        refine atom_recognizes found fun t formula => ?_
        cases formula
        exact ⟨trivial, rfl, by simp [Formula.spellings, Token.spelling, isKind]⟩
    next isKind => exact paren_recognizes moves recognizer spelled found isKind _
    next => exact .of_none (.bind fun _ => .ite (.pure rfl) (.bind fun _ => .pure rfl))

private theorem signed_recognizes (moves : ∀ form, (nested form).Moves)
    (recognizer : Recognizer nested)
    (spelled : c.Spelled) : Recognizes (signed nested) .unary c := by
  refine Recognizes.get ?_
  split
  next =>
    intro t errors formula noTest
    have same := postfixed_eq_primary formula
    rw [same] at errors formula ⊢
    exact primary_recognizes moves recognizer spelled t errors formula noTest
  next op isPrefixed =>
    intro t errors formula noTest
    obtain ⟨sign, isSign, formula⟩ := Option.bind_eq_some_iff.mp formula
    obtain ⟨operand, isOperand, rfl⟩ := Option.map_eq_some_iff.mp formula
    obtain ⟨kind, atKind, isOp⟩ := Option.bind_eq_some_iff.mp isPrefixed
    have atPrefix : c.atKind kind = true := by simp [Cursor.atKind, atKind]
    obtain ⟨token, rest, found, isKind⟩ := Cursor.exists_of_atKind atPrefix
    have inside := recognizer .unary c.next trivial (spelled.later c.before_next) operand
      (Eq.trans errors c.errors_next.symm) isOperand noTest
    obtain ⟨tokens, spells, split⟩ := inside.spells
    -- The kind of the sign fixes its text.
    have kindSign : kind = sign.kind := Sign.kind_of_prefixedOp? isOp isSign
    obtain ⟨symbol, isFixed⟩ := sign.symbol?_kind
    have spelling := (spelled token (by simp [found])).spelling_eq (isKind.trans kindSign) isFixed
    refine ⟨⟨inside.ordered, inside.admits⟩, rfl, ⟨token :: tokens, ?_, ?_⟩,
      fun _ isBinary => by cases isBinary⟩
    · rw [Formula.Spells, List.map_cons, spelling, spells]
      rfl
    · rw [found, ← c.rest_next found, split]
      rfl

private theorem unary_recognizes (moves : ∀ form, (nested form).Moves)
    (recognizer : Recognizer nested)
    (spelled : c.Spelled) : Recognizes (unary nested) .unary c := by
  intro t errors formula noTest
  have same := unary_eq_signed formula
  rw [same] at errors formula ⊢
  exact signed_recognizes moves recognizer spelled t errors formula noTest

/-! ## The loop over operators -/

private theorem instanceOf_gives (left : Expr) :
    Gives (instanceOf left) fun expr => ∃ type span, expr = .instanceOf left type span := by
  refine .bind fun _ => .bind fun _ => .bind fun type => .bind fun _ => ?_
  exact .ite (.bind fun _ => .bind fun _ => .pure ⟨type, _, rfl⟩)
    (.bind fun _ => .pure ⟨type, _, rfl⟩)

/-- A step declines before a weaker operator, reads a test for a type, or reads an operator
that is strong enough. -/
private theorem binaryStep_cases (nested : Form → Parser Expr) (minimum : Nat) (left : Expr)
    (c : Cursor) : (binaryStep nested minimum left c = (none, c) ∧ Weaker minimum c.rest) ∨
      (∃ type span, (binaryStep nested minimum left c).1 = some (.instanceOf left type span)) ∨
      ∃ (op : BinaryOp) (token : Token) (rest : List Token), c.rest = token :: rest ∧
        token.kind = op.kind ∧ minimum ≤ op.strength := by
  -- The next operator is weaker, or there is one: a test or a symbol.
  by_cases weaker : Weaker minimum c.rest
  · exact .inl ⟨binaryStep_declines nested left weaker, weaker⟩
  · simp only [Weaker, Classical.not_forall, Nat.not_lt] at weaker
    obtain ⟨strength, next, strong⟩ := weaker
    cases found : c.rest with
    | nil =>
      rw [found] at next
      cases next
    | cons token rest =>
      rw [found, operatorStrength?] at next
      by_cases test : token.kind = .ident ∧ token.text = "instanceof"
      · rw [if_pos test] at next
        cases next
        obtain ⟨type, span, isTest⟩ := instanceOf_gives left c
        have atTest : c.atWord "instanceof" = true := by simp [atWord_eq found, test]
        refine .inr (.inl ⟨type, span, ?_⟩)
        rw [← isTest, binaryStep, run_bind, run_get]
        simp only [atTest, ite_true, Nat.not_lt.mpr strong, ite_false]
        rfl
      · rw [if_neg test] at next
        obtain ⟨op, isOperator, rfl⟩ := Option.map_eq_some_iff.mp next
        exact .inr (.inr ⟨op, token, rest, rfl, BinaryOp.kind_of_binaryOp? isOperator, strong⟩)

/-- What the loop starts with is part of what it yields. -/
private theorem loop_formula {minimum limit : Nat} {left : Expr}
    (formula : (iterateWithin (binaryStep nested minimum) limit left c).1.formula? = some t)
    (noTest : t.hasInstanceOf = false) :
    ∃ first, left.formula? = some first ∧ first.hasInstanceOf = false := by
  induction limit generalizing left c with
  | zero => exact ⟨t, formula, noTest⟩
  | succ limit ih =>
    rcases binaryStep_cases nested minimum left c with
      ⟨declines, -⟩ | ⟨type, span, read⟩ | ⟨op, token, rest, found, isOperator, strong⟩
    · rw [iterateWithin_of_none declines] at formula
      exact ⟨t, formula, noTest⟩
    · rw [iterateWithin, run_bind, read] at formula
      obtain ⟨first, isTest, without⟩ := ih formula
      obtain ⟨operand, -, rfl⟩ := Option.map_eq_some_iff.mp isTest
      cases without
    · -- The left that the next step starts with has this one inside.
      rw [iterateWithin, run_bind, binaryStep_operator nested left found isOperator strong]
        at formula
      obtain ⟨first, isBinary, without⟩ := ih formula
      obtain ⟨operand, isOperand, isBinary⟩ := Option.bind_eq_some_iff.mp isBinary
      obtain ⟨right, -, rfl⟩ := Option.map_eq_some_iff.mp isBinary
      exact ⟨operand, isOperand, (Bool.or_eq_false_iff.mp without).1⟩

/-- The formula on the left of the loop, and how far it was read from the cursor `c`. -/
structure OnLeft (minimum : Nat) (t : Formula) (c c' : Cursor) : Prop where
  ordered : t.Ordered
  strong : minimum ≤ t.strength
  positive : 0 < t.strength
  noTest : t.hasInstanceOf = false
  spells : ∃ tokens, t.Spells tokens ∧ c.rest = tokens ++ c'.rest
  weaker : Weaker (t.strength + 1) c'.rest

/-- With the operator and what was recognized on its right, the loop has a new left. -/
theorem OnLeft.binary {minimum : Nat} {op : BinaryOp} {left right : Formula} {start after : Cursor}
    {token : Token} {rest : List Token} (onLeft : OnLeft minimum left start c)
    (spelled : c.Spelled) (found : c.rest = token :: rest) (isOperator : token.kind = op.kind)
    (strong : minimum ≤ op.strength) (noTest : right.hasInstanceOf = false)
    (onRight : Recognized (.binary (op.strength + 1)) right c.next after) :
    OnLeft minimum (.binary op left right) start after := by
  obtain ⟨first, isLeft, split⟩ := onLeft.spells
  obtain ⟨second, isRight, splitRight⟩ := onRight.spells
  -- A stronger operator would have been read with the last operand on the left.
  have leftStrong : op.strength < left.strength + 1 :=
    onLeft.weaker _ (by rw [found, operatorStrength?_operator isOperator]; rfl)
  have noLeftTest : op = .less → ¬left.IsInstanceOf := by
    intro _ isTest
    have without := onLeft.noTest
    cases left with
    | instanceOf => cases without
    | _ => exact isTest
  obtain ⟨symbol, isFixed⟩ := op.symbol?_kind
  have spelling := (spelled token (by simp [found])).spelling_eq isOperator isFixed
  refine ⟨⟨onLeft.ordered, onRight.ordered, Nat.le_of_lt_succ leftStrong, onRight.admits.1,
    noLeftTest⟩, strong, op.strength_pos, ?_, ⟨first ++ token :: second, ?_, ?_⟩,
    onRight.weaker _ rfl⟩
  · simp only [Formula.hasInstanceOf, onLeft.noTest, noTest, Bool.or_self]
  · rw [Formula.Spells, List.map_append, List.map_cons, spelling, isLeft, isRight]
    rfl
  · rw [split, found, ← c.rest_next found, splitRight]
    simp

theorem OnLeft.recognized {minimum : Nat} {start : Cursor} (onLeft : OnLeft minimum t start c)
    (weaker : Weaker minimum c.rest) : Recognized (.binary minimum) t start c where
  ordered := onLeft.ordered
  admits := ⟨onLeft.strong, onLeft.positive⟩
  spells := onLeft.spells
  weaker other same := by
    cases same
    exact weaker

private theorem loop_recognizes (moves : ∀ form, (nested form).Moves)
    (recognizer : Recognizer nested)
    {minimum limit : Nat} {left : Expr} {first : Formula} {start : Cursor} (spelled : c.Spelled)
    (enough : c.left ≤ limit) (isFirst : left.formula? = some first)
    (onLeft : OnLeft minimum first start c)
    (errors : (iterateWithin (binaryStep nested minimum) limit left c).2.errors = c.errors)
    (formula : (iterateWithin (binaryStep nested minimum) limit left c).1.formula? = some t)
    (noTest : t.hasInstanceOf = false) :
    Recognized (.binary minimum) t start
      (iterateWithin (binaryStep nested minimum) limit left c).2 := by
  induction limit generalizing left c first with
  | zero =>
    -- The limit was enough, so nothing is left to read.
    have same : first = t := Option.some.inj (isFirst.symm.trans formula)
    subst same
    have ended : c.rest = [] := List.length_eq_zero_iff.mp (Nat.le_zero.mp enough)
    exact onLeft.recognized fun strength next => by
      rw [ended] at next
      cases next
  | succ limit ih =>
    rcases binaryStep_cases nested minimum left c with
      ⟨declines, weaker⟩ | ⟨type, span, read⟩ | ⟨op, token, rest, found, isOperator, strong⟩
    · rw [iterateWithin_of_none declines] at formula ⊢
      have same : first = t := Option.some.inj (isFirst.symm.trans formula)
      subst same
      exact onLeft.recognized weaker
    · -- A test on the left would be part of the whole formula.
      rw [iterateWithin, run_bind, read] at formula
      obtain ⟨tested, isTest, without⟩ := loop_formula formula noTest
      obtain ⟨operand, -, rfl⟩ := Option.map_eq_some_iff.mp isTest
      cases without
    · rw [iterateWithin, run_bind, binaryStep_operator nested left found isOperator strong]
        at errors formula ⊢
      -- The operator and its right operand are part of the whole formula.
      obtain ⟨whole, isWhole, without⟩ := loop_formula formula noTest
      obtain ⟨operand, isOperand, isBinary⟩ := Option.bind_eq_some_iff.mp isWhole
      obtain ⟨right, isRight, rfl⟩ := Option.map_eq_some_iff.mp isBinary
      have same : first = operand := Option.some.inj (isFirst.symm.trans isOperand)
      subst same
      have onward := c.before_next.trans (moves (.binary (op.strength + 1)) c.next)
      -- No error is left, so none was found on the right, and its operand is recognized.
      obtain ⟨rightErrors, lastErrors⟩ := onward.errors_eq
        (iterateWithin_moves (binaryStep_moves moves minimum) limit _ _) errors
      have noRightTest : right.hasInstanceOf = false := (Bool.or_eq_false_iff.mp without).2
      have onRight := recognizer (.binary (op.strength + 1)) c.next op.strength_lt_tightest
        (spelled.later c.before_next) right (rightErrors.trans c.errors_next.symm) isRight
        noRightTest
      -- The operator itself was passed, so one step fewer is still enough.
      have shorter : (nested (.binary (op.strength + 1)) c.next).2.left ≤ limit := by
        have later := (moves (.binary (op.strength + 1)) c.next).left_le
        simp only [Cursor.left, c.rest_next found, found, List.length_cons] at later enough ⊢
        omega
      exact ih (spelled.later onward) shorter isWhole
        (onLeft.binary spelled found isOperator strong noRightTest onRight) lastErrors formula

private theorem binary_recognizes (moves : ∀ form, (nested form).Moves)
    (recognizer : Recognizer nested)
    {minimum : Nat} (attainable : minimum ≤ Formula.tightest) (spelled : c.Spelled) :
    Recognizes (binary nested minimum) (.binary minimum) c := by
  intro t errors formula noTest
  obtain ⟨first, isFirst, noFirstTest⟩ := loop_formula formula noTest
  have onward := unary_moves moves c
  obtain ⟨firstErrors, lastErrors⟩ := onward.errors_eq
    (iterateWithin_moves (binaryStep_moves moves minimum) _ _ _) errors
  have onFirst := unary_recognizes moves recognizer spelled first firstErrors isFirst noFirstTest
  have tight : first.strength = Formula.tightest := onFirst.admits
  -- The first operand is unary, and so tighter than any operator.
  have onLeft : OnLeft minimum first c (unary nested c).2 :=
    { ordered := onFirst.ordered
      strong := tight ▸ attainable
      positive := by rw [tight]; decide
      noTest := noFirstTest
      spells := onFirst.spells
      weaker := (weaker_tightest _).mono (by rw [tight]; exact Nat.le_succ _) }
  exact loop_recognizes moves recognizer (spelled.later onward) (Nat.le_refl _) isFirst onLeft
    lastErrors formula noTest

theorem Recognized.conditional {condition whenTrue whenFalse : Formula} {c₁ c₂ c₃ : Cursor}
    {question colon : Token} {afterQuestion afterColon : List Token}
    (onCondition : Recognized (.binary 0) condition c c₁)
    (atQuestion : c₁.rest = question :: afterQuestion)
    (isQuestion : question.spelling = TokenKind.question.spelling)
    (onTrue : Recognized .assignment whenTrue c₁.next c₂) (atColon : c₂.rest = colon :: afterColon)
    (isColon : colon.spelling = TokenKind.colon.spelling)
    (onFalse : Recognized .conditional whenFalse c₂.next c₃) :
    Recognized .conditional (.conditional condition whenTrue whenFalse) c c₃ := by
  obtain ⟨first, isFirst, splitFirst⟩ := onCondition.spells
  obtain ⟨second, isSecond, splitSecond⟩ := onTrue.spells
  obtain ⟨third, isThird, splitThird⟩ := onFalse.spells
  -- The tokens of the parts with those between them are those of the whole.
  refine ⟨⟨onCondition.ordered, onTrue.ordered, onFalse.ordered, onCondition.admits.2⟩, trivial,
    ⟨first ++ question :: (second ++ colon :: third), ?_, ?_⟩, fun _ isBinary => by cases isBinary⟩
  · simp only [Formula.Spells, Formula.spellings, List.map_append, List.map_cons, isQuestion,
      isColon]
    rw [isFirst, isSecond, isThird]
  · rw [splitFirst, atQuestion, ← c₁.rest_next atQuestion, splitSecond, atColon,
      ← c₂.rest_next atColon, splitThird]
    simp

private theorem conditional_recognizes (moves : ∀ form, (nested form).Moves)
    (recognizer : Recognizer nested) (spelled : c.Spelled) :
    Recognizes (conditional nested) .conditional c := by
  intro t errors formula noTest
  have onBinary := binary_recognizes moves recognizer (Nat.zero_le _) spelled
  cases atQuestion : (binary nested 0 c).2.atKind .question with
  | false =>
    have same := conditional_without_question atQuestion
    rw [same] at errors formula ⊢
    have recognized := onBinary t errors formula noTest
    exact ⟨recognized.ordered, trivial, recognized.spells, fun _ isBinary => by cases isBinary⟩
  | true =>
    obtain ⟨span, same⟩ := conditional_at_question atQuestion
    dsimp only at same
    rw [same] at errors formula ⊢
    obtain ⟨condition, isCondition, formula⟩ := Option.bind_eq_some_iff.mp formula
    obtain ⟨whenTrue, isTrue, formula⟩ := Option.bind_eq_some_iff.mp formula
    obtain ⟨whenFalse, isFalse, rfl⟩ := Option.map_eq_some_iff.mp formula
    simp only [Formula.hasInstanceOf, Bool.or_eq_false_iff] at noTest
    obtain ⟨⟨noConditionTest, noTrueTest⟩, noFalseTest⟩ := noTest
    -- No error is left in the end, so none came from any of the three parts.
    have toQuestion := binary_moves moves 0 c
    have toColon := (binary nested 0 c).2.before_next.trans (moves .assignment _)
    have overColon := expect_moves .colon (nested .assignment (binary nested 0 c).2.next).2
    have toEnd := moves .conditional
      (expect .colon (nested .assignment (binary nested 0 c).2.next).2).2
    obtain ⟨conditionErrors, errors⟩ :=
      toQuestion.errors_eq ((toColon.trans overColon).trans toEnd) errors
    obtain ⟨trueErrors, errors⟩ := toColon.errors_eq (overColon.trans toEnd) errors
    obtain ⟨colonErrors, falseErrors⟩ := overColon.errors_eq toEnd errors
    obtain ⟨question, afterQuestion, atToken, questionKind⟩ := Cursor.exists_of_atKind atQuestion
    obtain ⟨colon, afterColon, atColon, colonKind, read⟩ := expect_of_errors colonErrors
    rw [read] at falseErrors isFalse ⊢
    have spelledQuestion := spelled.later toQuestion
    have spelledColon := spelledQuestion.later toColon
    have onCondition := onBinary condition conditionErrors isCondition noConditionTest
    have onTrue := recognizer .assignment _ trivial
      (spelledQuestion.later (Cursor.before_next _)) whenTrue
      (trueErrors.trans (Cursor.errors_next _).symm) isTrue noTrueTest
    have onFalse := recognizer .conditional _ trivial (spelledColon.later (Cursor.before_next _))
      whenFalse falseErrors isFalse noFalseTest
    have questionSpelling :=
      (spelledQuestion question (by simp [atToken])).spelling_eq questionKind rfl
    have colonSpelling := (spelledColon colon (by simp [atColon])).spelling_eq colonKind rfl
    exact onCondition.conditional atToken questionSpelling onTrue atColon colonSpelling onFalse

private theorem assignment_recognizes (moves : ∀ form, (nested form).Moves)
    (recognizer : Recognizer nested) (spelled : c.Spelled) :
    Recognizes (assignment nested) .assignment c := by
  intro t errors formula noTest
  rcases lambda?_cases nested c with declines | ⟨span, read⟩
  · cases atAssign : (conditional nested c).2.atKind .assign with
    | false =>
      have same := assignment_without_assign declines atAssign
      rw [same] at errors formula ⊢
      have recognized := conditional_recognizes moves recognizer spelled t errors formula noTest
      exact ⟨recognized.ordered, trivial, recognized.spells, fun _ isBinary => by cases isBinary⟩
    | true =>
      -- An assignment is no formula, and neither is a lambda.
      rw [assignment, run_bind, declines] at formula
      simp only [run_bind, run_get, atAssign, ite_true] at formula
      cases formula
  · rw [assignment, run_bind, read] at formula
    cases formula

private theorem ofForm_recognizes (moves : ∀ form, (nested form).Moves)
    (recognizer : Recognizer nested) : Recognizer (ofForm nested) := by
  intro form c attainable spelled
  cases form with
  | assignment => exact assignment_recognizes moves recognizer spelled
  | conditional => exact conditional_recognizes moves recognizer spelled
  | binary minimum => exact binary_recognizes moves recognizer attainable spelled
  | unary => exact unary_recognizes moves recognizer spelled

private theorem exprWithin_recognizes (depth : Nat) : Recognizer (exprWithin depth) := by
  induction depth with
  | zero =>
    intro form c _ _ t _ formula
    cases formula
  | succ depth ih => exact ofForm_recognizes (exprWithin_moves depth) ih

end Parser

/-- A formula that is read without errors, with no test for a type, is ordered, and the
text begins with its tokens. -/
theorem parseExpression_recognizes {t : Formula} {text : String} {offset : Nat}
    (errors : (parseExpression text offset).errors = [])
    (formula : (parseExpression text offset).value.formula? = some t)
    (noTest : t.hasInstanceOf = false) :
    t.Ordered ∧ ∃ consumed, t.Spells consumed ∧
      tokens text offset = consumed ++ (Parser.expr (.ofText text offset)).2.rest := by
  have spelled : (Cursor.ofText text offset).Spelled := tokens_spelled text offset
  have recognized := Parser.exprWithin_recognizes ((Cursor.ofText text offset).left + 1)
    .assignment _ trivial spelled t errors formula noTest
  exact ⟨recognized.ordered, recognized.spells⟩

/-- The parser reads the grammar of operators: an ordered formula is read back from its
tokens, and what is read without errors, tests for a type aside, is an ordered formula
whose tokens are those that were passed. -/
theorem parseExpression_grammar (text : String) (offset : Nat) :
    (∀ t : Formula, t.Plain → t.Ordered → t.Spells (tokens text offset) →
      (parseExpression text offset).value.formula? = some t ∧
        (parseExpression text offset).errors = []) ∧
    (∀ t : Formula, (parseExpression text offset).errors = [] →
      (parseExpression text offset).value.formula? = some t → t.hasInstanceOf = false →
        t.Ordered ∧ ∃ consumed, t.Spells consumed ∧
          tokens text offset = consumed ++ (Parser.expr (.ofText text offset)).2.rest) :=
  ⟨fun _ plain ordered written => parseExpression_reads plain ordered written,
    fun _ errors formula noTest => parseExpression_recognizes errors formula noTest⟩

/-- The formula `a || b && !c`. -/
def Formula.disjunction : Formula :=
  .binary .orOr (.name "a") (.binary .andAnd (.name "b") (.signed .not (.name "c")))

theorem parseExpression_grammar_disjunction :
    (parseExpression "a || b && !c" 0).value.formula? = some .disjunction ∧
      (parseExpression "a || b && !c" 0).errors = [] ∧
      ∃ consumed, Formula.disjunction.Spells consumed ∧ tokens "a || b && !c" 0 =
        consumed ++ (Parser.expr (.ofText "a || b && !c" 0)).2.rest := by
  obtain ⟨reads, recognizes⟩ := parseExpression_grammar "a || b && !c" 0
  have plain : Formula.disjunction.Plain := by
    simp [Formula.disjunction, Formula.Plain, Formula.reserved, primitiveTypes]
  have ordered : Formula.disjunction.Ordered := by
    simp [Formula.disjunction, Formula.Ordered, Formula.strength, Formula.tightest,
      BinaryOp.strength]
  have written : Formula.disjunction.Spells (tokens "a || b && !c" 0) := by
    unfold Formula.Spells
    decide +kernel
  obtain ⟨formula, errors⟩ := reads .disjunction plain ordered written
  exact ⟨formula, errors, (recognizes .disjunction errors formula rfl).2⟩

end MethodContracts.Source
