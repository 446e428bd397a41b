import MethodContracts.Proofs.Source.Spelling
import MethodContracts.Source.Expression

/-!
# The grammar of operators

Formulas are the expressions made of words, literals, parentheses and operators, without
their spans. A formula is ordered if its operands need no further parentheses: this is
what makes the tokens of a formula determine it.
-/
namespace MethodContracts.Source

/-- The operators that stand in front of their operand and do not change it. -/
inductive Sign where
  | not
  | neg
  | plus
  | bitNot
deriving DecidableEq, Repr

namespace Sign

def op : Sign → UnaryOp
  | .not => .not
  | .neg => .neg
  | .plus => .plus
  | .bitNot => .bitNot

def kind : Sign → TokenKind
  | .not => .bang
  | .neg => .minus
  | .plus => .plus
  | .bitNot => .tilde

end Sign

def UnaryOp.sign? : UnaryOp → Option Sign
  | .not => some .not
  | .neg => some .neg
  | .plus => some .plus
  | .bitNot => some .bitNot
  | .preIncrement | .preDecrement | .postIncrement | .postDecrement => none

def BinaryOp.kind : BinaryOp → TokenKind
  | .add => .plus
  | .sub => .minus
  | .mul => .star
  | .div => .slash
  | .rem => .percent
  | .equal => .equal
  | .notEqual => .notEqual
  | .less => .less
  | .greater => .greater
  | .lessEqual => .lessEqual
  | .greaterEqual => .greaterEqual
  | .bitAnd => .amp
  | .bitOr => .pipe
  | .bitXor => .caret
  | .andAnd => .andAnd
  | .orOr => .orOr

inductive Formula where
  | name (word : String)
  | number (text : String)
  | string (text : String)
  | char (text : String)
  | bool (value : Bool)
  | null
  | this
  | paren (inner : Formula)
  | signed (sign : Sign) (operand : Formula)
  | binary (op : BinaryOp) (left right : Formula)
  | instanceOf (operand : Formula) (type : String)
  | conditional (condition whenTrue whenFalse : Formula)
deriving DecidableEq, Repr

/-- The formula that an expression is, if it has no other forms. -/
def Expr.formula? : Expr → Option Formula
  | .name word _ => some (.name word)
  | .number text _ => some (.number text)
  | .string text _ => some (.string text)
  | .char text _ => some (.char text)
  | .bool value _ => some (.bool value)
  | .null _ => some .null
  | .this _ => some .this
  | .paren inner _ => inner.formula?.map .paren
  | .unary op operand _ => op.sign?.bind fun sign => operand.formula?.map (.signed sign)
  | .binary op left right _ =>
    left.formula?.bind fun left => right.formula?.map (.binary op left)
  | .instanceOf operand type _ => operand.formula?.map (.instanceOf · type.text)
  | .conditional condition whenTrue whenFalse _ =>
    condition.formula?.bind fun condition => whenTrue.formula?.bind fun whenTrue =>
      whenFalse.formula?.map (.conditional condition whenTrue)
  | .call _ _ _ | .field _ _ _ _ | .index _ _ _ | .new _ _ _ | .assign _ _ _ | .cast _ _ _
  | .lambda _ | .methodRef _ _ _ | .missing _ => none

namespace Formula

def spellings : Formula → List Spelling
  | .name word => [(.ident, word)]
  | .number text => [(.number, text)]
  | .string text => [(.string, text)]
  | .char text => [(.char, text)]
  | .bool true => [(.ident, "true")]
  | .bool false => [(.ident, "false")]
  | .null => [(.ident, "null")]
  | .this => [(.ident, "this")]
  | .paren inner =>
    TokenKind.openParen.spelling :: (spellings inner ++ [TokenKind.closeParen.spelling])
  | .signed sign operand => sign.kind.spelling :: spellings operand
  | .binary op left right => spellings left ++ op.kind.spelling :: spellings right
  | .instanceOf operand type =>
    spellings operand ++ [(.ident, "instanceof"), (.ident, type)]
  | .conditional condition whenTrue whenFalse =>
    spellings condition ++ TokenKind.question.spelling ::
      (spellings whenTrue ++ TokenKind.colon.spelling :: spellings whenFalse)

/-- How strongly what no binary operator takes apart holds together. -/
def tightest : Nat := 11

/-- How strongly a formula holds together. -/
def strength : Formula → Nat
  | .conditional _ _ _ => 0
  | .binary op _ _ => op.strength
  | .instanceOf _ _ => BinaryOp.instanceOfStrength
  | _ => tightest

def IsInstanceOf : Formula → Prop
  | .instanceOf _ _ => True
  | _ => False

/-- No operand needs parentheses. After a type, `<` opens type arguments; so a test for
a type cannot be compared by `<` without them either. -/
def Ordered : Formula → Prop
  | .paren inner => Ordered inner
  | .signed _ operand => Ordered operand ∧ operand.strength = tightest
  | .binary op left right => Ordered left ∧ Ordered right ∧
    op.strength ≤ left.strength ∧ op.strength < right.strength ∧
      (op = .less → ¬left.IsInstanceOf)
  | .instanceOf operand _ => Ordered operand ∧ BinaryOp.instanceOfStrength ≤ operand.strength
  | .conditional condition whenTrue whenFalse =>
    Ordered condition ∧ Ordered whenTrue ∧ Ordered whenFalse ∧ 0 < condition.strength
  | _ => True

/-- The words that an expression does not read as names, and those that a type does not
begin with. -/
def reserved : List String := ["true", "false", "null", "this", "new", "instanceof", "final"]

/-- Names and types are words that mean nothing else. -/
def Plain : Formula → Prop
  | .name word => word ∉ reserved ∧ word ∉ primitiveTypes
  | .paren inner => Plain inner
  | .signed _ operand => Plain operand
  | .binary _ left right => Plain left ∧ Plain right
  | .instanceOf operand type => Plain operand ∧ type ∉ reserved
  | .conditional condition whenTrue whenFalse => Plain condition ∧ Plain whenTrue ∧ Plain whenFalse
  | _ => True

/-- Whether there is a test for a type anywhere in the formula. -/
def hasInstanceOf : Formula → Bool
  | .paren inner => hasInstanceOf inner
  | .signed _ operand => hasInstanceOf operand
  | .binary _ left right => hasInstanceOf left || hasInstanceOf right
  | .instanceOf _ _ => true
  | .conditional condition whenTrue whenFalse =>
    hasInstanceOf condition || hasInstanceOf whenTrue || hasInstanceOf whenFalse
  | _ => false

/-- Whether the last token is the type of a test. -/
def EndsInType : Formula → Prop
  | .signed _ operand => EndsInType operand
  | .binary _ _ right => EndsInType right
  | .instanceOf _ _ => True
  | .conditional _ _ whenFalse => EndsInType whenFalse
  | _ => False

theorem spellings_pos (t : Formula) : 0 < t.spellings.length := by
  cases t with
  | bool value => cases value <;> exact Nat.one_pos
  | binary | conditional =>
    simp only [spellings, List.length_append, List.length_cons]
    omega
  | _ => simp [spellings]

/-- What binds more strongly than a test for a type does not end in one. -/
theorem not_endsInType {t : Formula} (ordered : t.Ordered)
    (strong : BinaryOp.instanceOfStrength < t.strength) : ¬t.EndsInType := by
  induction t with
  | signed sign operand ih =>
    obtain ⟨inner, tight⟩ := ordered
    exact ih inner (by rw [tight]; decide)
  | binary op left right _ ih =>
    obtain ⟨-, inner, -, stronger, -⟩ := ordered
    exact ih inner (Nat.lt_trans strong stronger)
  | instanceOf => exact absurd strong (Nat.lt_irrefl _)
  | conditional => cases strong
  | _ => exact id

/-- The left operand of `<` does not end in a type. -/
theorem not_endsInType_left {left : Formula} (ordered : left.Ordered)
    (strong : BinaryOp.less.strength ≤ left.strength) (other : ¬left.IsInstanceOf) :
    ¬left.EndsInType := by
  cases left with
  | binary op first second =>
    -- The right operand is stronger than `op`, and `op` is at least as strong as a test.
    obtain ⟨-, inner, -, stronger, -⟩ := ordered
    have strongEnough : BinaryOp.instanceOfStrength < second.strength :=
      Nat.lt_of_le_of_lt strong stronger
    have stays : ¬second.EndsInType := not_endsInType inner strongEnough
    exact stays
  | instanceOf => exact absurd trivial other
  | conditional => cases strong
  | signed sign operand =>
    obtain ⟨inner, tight⟩ := ordered
    have stays : ¬operand.EndsInType := not_endsInType inner (by rw [tight]; decide)
    exact stays
  | _ => exact id

/-- The tokens are those of the formula. -/
def Spells (t : Formula) (tokens : List Token) : Prop :=
  tokens.map Token.spelling = t.spellings

variable {t : Formula} {tokens : List Token}

theorem Spells.length_eq (spells : t.Spells tokens) : tokens.length = t.spellings.length := by
  rw [← spells, List.length_map]

theorem Spells.paren (spells : (Formula.paren t).Spells tokens) :
    ∃ opening inside closing, tokens = opening :: (inside ++ [closing]) ∧
      opening.spelling = TokenKind.openParen.spelling ∧ t.Spells inside ∧
      closing.spelling = TokenKind.closeParen.spelling := by
  obtain ⟨opening, rest, rfl, isOpening, spells⟩ := List.map_eq_cons_iff.mp spells
  obtain ⟨inside, last, rfl, inner, spells⟩ := List.map_eq_append_iff.mp spells
  obtain ⟨closing, rfl, isClosing⟩ := List.map_eq_singleton_iff.mp spells
  exact ⟨opening, inside, closing, rfl, isOpening, inner, isClosing⟩

theorem Spells.signed {sign : Sign} (spells : (Formula.signed sign t).Spells tokens) :
    ∃ first rest, tokens = first :: rest ∧ first.spelling = sign.kind.spelling ∧
      t.Spells rest :=  by
  obtain ⟨first, rest, rfl, isSign, operand⟩ := List.map_eq_cons_iff.mp spells
  exact ⟨first, rest, rfl, isSign, operand⟩

theorem Spells.binary {op : BinaryOp} {left right : Formula}
    (spells : (Formula.binary op left right).Spells tokens) :
    ∃ first token second, tokens = first ++ token :: second ∧ left.Spells first ∧
      token.spelling = op.kind.spelling ∧ right.Spells second := by
  obtain ⟨first, rest, rfl, isLeft, spells⟩ := List.map_eq_append_iff.mp spells
  obtain ⟨token, second, rfl, isOperator, isRight⟩ := List.map_eq_cons_iff.mp spells
  exact ⟨first, token, second, rfl, isLeft, isOperator, isRight⟩

theorem Spells.instanceOf {type : String} (spells : (Formula.instanceOf t type).Spells tokens) :
    ∃ first word last, tokens = first ++ [word, last] ∧ t.Spells first ∧
      word.kind = .ident ∧ word.text = "instanceof" ∧ last.kind = .ident ∧ last.text = type := by
  obtain ⟨first, rest, rfl, operand, spells⟩ := List.map_eq_append_iff.mp spells
  obtain ⟨word, rest, rfl, isWord, spells⟩ := List.map_eq_cons_iff.mp spells
  obtain ⟨last, rfl, isType⟩ := List.map_eq_singleton_iff.mp spells
  exact ⟨first, word, last, rfl, operand, congrArg Prod.fst isWord, congrArg Prod.snd isWord,
    congrArg Prod.fst isType, congrArg Prod.snd isType⟩

theorem Spells.conditional {condition whenTrue whenFalse : Formula}
    (spells : (Formula.conditional condition whenTrue whenFalse).Spells tokens) :
    ∃ first question second colon third,
      tokens = first ++ question :: (second ++ colon :: third) ∧ condition.Spells first ∧
      question.spelling = TokenKind.question.spelling ∧ whenTrue.Spells second ∧
      colon.spelling = TokenKind.colon.spelling ∧ whenFalse.Spells third := by
  obtain ⟨first, rest, rfl, isCondition, spells⟩ := List.map_eq_append_iff.mp spells
  obtain ⟨question, rest, rfl, isQuestion, spells⟩ := List.map_eq_cons_iff.mp spells
  obtain ⟨second, rest, rfl, isTrue, spells⟩ := List.map_eq_append_iff.mp spells
  obtain ⟨colon, third, rfl, isColon, isFalse⟩ := List.map_eq_cons_iff.mp spells
  exact ⟨first, question, second, colon, third, rfl, isCondition, isQuestion, isTrue, isColon,
    isFalse⟩

theorem Spells.single {kind : TokenKind} {text : String} (single : t.spellings = [(kind, text)])
    (spells : t.Spells tokens) :
    ∃ token, tokens = [token] ∧ token.kind = kind ∧ token.text = text := by
  rw [Spells, single] at spells
  obtain ⟨token, rfl, spelled⟩ := List.map_eq_singleton_iff.mp spells
  exact ⟨token, rfl, congrArg Prod.fst spelled, congrArg Prod.snd spelled⟩

end Formula

namespace BinaryOp

theorem binaryOp?_kind (op : BinaryOp) : op.kind.binaryOp? = some op := by
  cases op <;> rfl

theorem kind_of_binaryOp? {kind : TokenKind} {op : BinaryOp} (found : kind.binaryOp? = some op) :
    kind = op.kind := by
  cases kind <;> cases found <;> rfl

theorem strength_pos (op : BinaryOp) : 0 < op.strength := by
  cases op <;> decide

theorem strength_lt_tightest (op : BinaryOp) : op.strength < Formula.tightest := by
  cases op <;> decide

theorem symbol?_kind (op : BinaryOp) : ∃ symbol, op.kind.symbol? = some symbol := by
  cases op <;> exact ⟨_, rfl⟩

end BinaryOp

namespace Sign

theorem prefixedOp?_kind (sign : Sign) : sign.kind.prefixedOp? = some sign.op := by
  cases sign <;> rfl

theorem sign?_op (sign : Sign) : sign.op.sign? = some sign := by
  cases sign <;> rfl

theorem kind_of_prefixedOp? {kind : TokenKind} {op : UnaryOp} {sign : Sign}
    (found : kind.prefixedOp? = some op) (isSign : op.sign? = some sign) : kind = sign.kind := by
  cases kind <;> cases found <;> cases isSign <;> rfl

theorem symbol?_kind (sign : Sign) : ∃ symbol, sign.kind.symbol? = some symbol := by
  cases sign <;> exact ⟨_, rfl⟩

end Sign

/-- The strength of the operator at the start of the tokens. -/
def operatorStrength? : List Token → Option Nat
  | [] => none
  | token :: _ =>
    if token.kind = .ident ∧ token.text = "instanceof" then some BinaryOp.instanceOfStrength
    else token.kind.binaryOp?.map BinaryOp.strength

/-- No operator of this strength or above comes next. -/
def Weaker (bound : Nat) (tokens : List Token) : Prop :=
  ∀ strength ∈ operatorStrength? tokens, strength < bound

theorem operatorStrength?_operator {op : BinaryOp} {token : Token} {rest : List Token}
    (isOperator : token.kind = op.kind) :
    operatorStrength? (token :: rest) = some op.strength := by
  have noWord : op.kind ≠ .ident := by cases op <;> decide
  simp [operatorStrength?, isOperator, noWord, op.binaryOp?_kind]

theorem Weaker.mono {low high : Nat} {tokens : List Token} (weaker : Weaker low tokens)
    (le : low ≤ high) : Weaker high tokens :=
  fun strength next => Nat.lt_of_lt_of_le (weaker strength next) le

/-- No operator is as strong as an operand. -/
theorem weaker_tightest (tokens : List Token) : Weaker Formula.tightest tokens := by
  intro strength next
  cases tokens with
  | nil => cases next
  | cons token rest =>
    rw [operatorStrength?] at next
    split at next
    · cases next
      decide
    · obtain ⟨op, -, rfl⟩ := Option.map_eq_some_iff.mp next
      exact op.strength_lt_tightest

theorem weaker_cons {bound : Nat} {token : Token} {rest : List Token} {kind : TokenKind}
    (spelled : token.spelling = kind.spelling) (noWord : kind ≠ .ident)
    (noOperator : kind.binaryOp? = none) : Weaker bound (token :: rest) := by
  have isKind := Token.kind_of_spelling spelled
  intro strength next
  simp [operatorStrength?, isKind, noWord, noOperator] at next

theorem weaker_operator {op : BinaryOp} {bound : Nat} {token : Token} {rest : List Token}
    (isOperator : token.kind = op.kind) (below : op.strength < bound) :
    Weaker bound (token :: rest) := by
  intro strength next
  rw [operatorStrength?_operator isOperator] at next
  cases next
  exact below

/-- A test for a type is no stronger than its operator. -/
theorem weaker_test {bound : Nat} {word : Token} {rest : List Token} (isWord : word.kind = .ident)
    (isTest : word.text = "instanceof") (below : BinaryOp.instanceOfStrength < bound) :
    Weaker bound (word :: rest) := by
  intro strength next
  simp only [operatorStrength?, isWord, isTest, and_self, ite_true, Option.mem_some_iff] at next
  subst next
  exact below

end MethodContracts.Source
