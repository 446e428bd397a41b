import MethodContracts.Proofs.Source.Grammar
import MethodContracts.Proofs.Source.Progress

/-!
# Looking ahead over a formula

The parser looks past the next token for the arrow of a lambda, for the end of a cast
and for what follows an operand. The tokens of a formula alternate between operands and
operators, and along such tokens every one of these readings is declined.
-/
namespace MethodContracts.Source

/-- What is expected between two tokens of a formula. -/
inductive Place where
  | operand
  | operator
  | type
deriving DecidableEq, Repr

namespace TokenKind

/-- Whether an operand follows a token that stands after one. -/
def joins (kind : TokenKind) : Bool :=
  kind.binaryOp?.isSome || kind == .question || kind == .colon

/-- Whether a token of this kind may stand at a place. -/
def fits (kind : TokenKind) : Place → Bool
  | .operand => kind ∈ [.ident, .number, .string, .char, .openParen, .bang, .minus, .plus, .tilde]
  | .operator => kind.joins || kind ∈ [.closeParen, .ident]
  | .type => kind == .ident

end TokenKind

theorem BinaryOp.joins_kind (op : BinaryOp) : op.kind.joins = true := by
  rw [TokenKind.joins, op.binaryOp?_kind]
  rfl

/-- From this place on, operands and operators take turns. -/
inductive Orderly : Place → List Token → Prop
  | word {token rest} : token.kind = .ident → token.text ≠ "new" → token.text ∉ primitiveTypes →
    Orderly .operator rest → Orderly .operand (token :: rest)
  | literal {token rest} : token.kind ∈ [.number, .string, .char] →
    Orderly .operator rest → Orderly .operand (token :: rest)
  | opening {token rest} : token.kind = .openParen →
    Orderly .operand rest → Orderly .operand (token :: rest)
  | sign {token rest} (sign : Sign) : token.kind = sign.kind →
    Orderly .operand rest → Orderly .operand (token :: rest)
  | done : Orderly .operator []
  | closing {token rest} : token.kind = .closeParen →
    Orderly .operator rest → Orderly .operator (token :: rest)
  | joining {token rest} : token.kind.joins = true →
    Orderly .operand rest → Orderly .operator (token :: rest)
  | test {token rest} : token.kind = .ident → token.text = "instanceof" →
    Orderly .type rest → Orderly .operator (token :: rest)
  | type {token rest} : token.kind = .ident → token.text ≠ "final" →
    Orderly .operator rest → Orderly .type (token :: rest)

namespace Orderly

variable {place : Place} {token : Token} {rest : List Token}

theorem fits (orderly : Orderly place (token :: rest)) : token.kind.fits place = true := by
  cases orderly with
  | word isWord => rw [isWord]; rfl
  | literal isLiteral =>
    simp only [List.mem_cons, List.not_mem_nil, or_false] at isLiteral
    rcases isLiteral with is | is | is <;> rw [is] <;> rfl
  | opening isOpening => rw [isOpening]; rfl
  | sign sign isSign => rw [isSign]; cases sign <;> rfl
  | closing isClosing => rw [isClosing]; rfl
  | joining isJoining => simp [TokenKind.fits, isJoining]
  | test isWord => rw [isWord]; rfl
  | type isWord => rw [isWord]; rfl

theorem tail (orderly : Orderly place (token :: rest)) : ∃ next, Orderly next rest := by
  cases orderly <;> exact ⟨_, ‹_›⟩

/-- No arrow stands between operands and operators. -/
theorem kind_ne_arrow {tokens : List Token} (orderly : Orderly place tokens) :
    ∀ token ∈ tokens, token.kind ≠ .arrow := by
  induction tokens generalizing place with
  | nil =>
    intro token member
    cases member
  | cons first rest ih =>
    intro token member
    rcases List.mem_cons.mp member with rfl | later
    · intro isArrow
      -- No place has room for an arrow.
      have isFit := orderly.fits
      rw [isArrow] at isFit
      cases place <;> cases isFit
    · obtain ⟨next, further⟩ := orderly.tail
      exact ih further token later

/-- What leads to an operand is a joining token. -/
theorem of_joins (orderly : Orderly place (token :: rest)) (isOperator : token.kind.joins = true)
    (noOperand : token.kind.fits .operand = false) : Orderly .operand rest := by
  have isFit := orderly.fits
  cases orderly with
  | joining _ operand => exact operand
  | closing is => rw [is] at isOperator; cases isOperator
  | test is => rw [is] at isOperator; cases isOperator
  | type is => rw [is] at isOperator; cases isOperator
  | word | literal | opening | sign => rw [isFit] at noOperand; cases noOperand

theorem of_closing (orderly : Orderly .operator (token :: rest))
    (isClosing : token.kind = .closeParen) : Orderly .operator rest := by
  cases orderly with
  | closing _ operator => exact operator
  | joining is => rw [isClosing] at is; cases is
  | test is => rw [isClosing] at is; cases is

end Orderly

namespace Cursor

variable {c : Cursor} {place : Place} {kind : TokenKind}

theorem atKind_of_rest {token : Token} {rest : List Token} (found : c.rest = token :: rest)
    (isKind : token.kind = kind) : c.atKind kind = true := by
  simp [atKind, kind?, found, isKind]

theorem exists_of_atKind (atIt : c.atKind kind = true) :
    ∃ token rest, c.rest = token :: rest ∧ token.kind = kind := by
  unfold atKind kind? at atIt
  cases found : c.rest with
  | nil => simp [found] at atIt
  | cons token rest =>
    simp only [found, List.head?_cons, Option.map_some, beq_iff_eq, Option.some.injEq] at atIt
    exact ⟨token, rest, rfl, atIt⟩

theorem rest_ne_nil (atIt : c.atKind kind = true) : c.rest ≠ [] := by
  obtain ⟨token, rest, found, -⟩ := exists_of_atKind atIt
  exact found ▸ List.cons_ne_nil _ _

/-- Where something is known of the kind of the next token, there is one. -/
theorem exists_of_kind? {α : Type} {f : TokenKind → Option α} {value : α}
    (known : c.kind?.bind f = some value) : ∃ token rest, c.rest = token :: rest := by
  obtain ⟨kind, isKind, -⟩ := Option.bind_eq_some_iff.mp known
  obtain ⟨token, isHead, -⟩ := Option.map_eq_some_iff.mp isKind
  exact ⟨token, List.head?_eq_some_iff.mp isHead⟩

theorem exists_of_not_atEnd (notAtEnd : ¬c.atEnd = true) :
    ∃ token rest, c.rest = token :: rest :=
  List.exists_cons_of_ne_nil fun atEnd => notAtEnd (List.isEmpty_iff.mpr atEnd)

theorem rest_next {token : Token} {rest : List Token} (found : c.rest = token :: rest) :
    c.next.rest = rest := by
  simp only [next, found]

theorem not_atKind (orderly : Orderly place c.rest) (unfit : kind.fits place = false) :
    c.atKind kind = false := by
  unfold atKind kind?
  cases found : c.rest with
  | nil => rfl
  | cons token rest =>
    rw [found] at orderly
    have isFit := orderly.fits
    have different : token.kind ≠ kind := by
      intro same
      rw [same, unfit] at isFit
      cases isFit
    simpa using different

/-- Behind a closing parenthesis no operand starts, and a sign is an operator. -/
private theorem not_atCastOperand {token : Token} {rest : List Token} {type : String}
    (found : c.rest = token :: rest) (orderly : Orderly .operator rest)
    (notPrimitive : type ∉ primitiveTypes) : c.atCastOperand type = false := by
  have noType : primitiveTypes.contains type = false := by simpa using notPrimitive
  simp only [atCastOperand, found, List.getElem?_cons_succ]
  cases rest with
  | nil => rfl
  | cons second rest =>
    simp only [List.getElem?_cons_zero]
    cases orderly with
    | closing is => simp only [is]
    | test isWord isTest => simp only [isWord, isTest, bne_self_eq_false]
    | joining isJoining =>
      -- Signs start an operand too, but only behind a primitive type.
      generalize second.kind = kind at isJoining
      cases kind <;> first | rfl | exact noType | cases isJoining

private theorem lambdaParams?_eq_none (orderly : Orderly place c.rest) :
    c.lambdaParams? = none := by
  unfold lambdaParams?
  rw [Option.filter_eq_none_iff]
  intro count _ isArrow
  simp only [atNth, beq_iff_eq, Option.map_eq_some_iff] at isArrow
  obtain ⟨token, found, is⟩ := isArrow
  exact orderly.kind_ne_arrow token (List.mem_of_getElem? found) is

end Cursor

namespace Parser

variable {α : Type} {c : Cursor}

theorem iterateWithin_of_none {step : α → Parser (Option α)} {value : α}
    (declines : step value c = (none, c)) (limit : Nat) :
    iterateWithin step limit value c = (value, c) := by
  cases limit with
  | zero => rfl
  | succ limit =>
    rw [iterateWithin, run_bind, declines]
    rfl

theorem iterate_of_none {step : α → Parser (Option α)} {value : α}
    (declines : step value c = (none, c)) : iterate step value c = (value, c) :=
  iterateWithin_of_none declines c.left

/-- What every step keeps holds of what a repetition yields. -/
private theorem iterate_keeps {step : α → Parser (Option α)} {holds : α → Cursor → Prop}
    (keeps : ∀ value c, holds value c → holds ((step value c).1.getD value) (step value c).2)
    (value : α) (c : Cursor) (initially : holds value c) :
    holds (iterate step value c).1 (iterate step value c).2 := by
  -- What a step keeps holds under every limit, so also under that of the tokens left.
  have within (limit : Nat) (value : α) (c : Cursor) (initially : holds value c) :
      holds (iterateWithin step limit value c).1 (iterateWithin step limit value c).2 := by
    induction limit generalizing value c with
    | zero => exact initially
    | succ limit ih =>
      have kept := keeps value c initially
      rw [iterateWithin, run_bind]
      cases next : (step value c).1 with
      | none =>
        rw [next] at kept
        exact kept
      | some further =>
        rw [next] at kept
        exact ih further _ kept
  exact within c.left value c initially

theorem expect_eq {token : Token} {rest : List Token} {kind : TokenKind}
    (found : c.rest = token :: rest) (isKind : token.kind = kind) :
    expect kind c = (token, c.next) := by
  simp only [expect, expectAs, found, isKind, ite_true]

theorem lambda?_declines {place : Place} (nested : Form → Parser Expr)
    (orderly : Orderly place c.rest) : lambda? nested c = (none, c) := by
  rw [lambda?, run_bind, run_get, c.lambdaParams?_eq_none orderly]
  rfl

/-- Nothing of a formula stands behind an operand without an operator. -/
theorem postfixed_declines (nested : Form → Parser Expr) (expr : Expr)
    (orderly : Orderly .operator c.rest) :
    iterate (postfixedStep nested) expr c = (expr, c) := by
  apply iterate_of_none
  rw [postfixedStep, run_bind, run_get]
  cases found : c.rest with
  | nil => rfl
  | cons token rest =>
    rw [found] at orderly
    have isFit := orderly.fits
    dsimp only
    generalize token.kind = kind at isFit
    cases kind <;> first | rfl | cases isFit

private theorem dottedStep_declines (name : NameText) {place : Place}
    (orderly : Orderly place c.rest) : dottedStep name c = (none, c) := by
  have noDot : c.atKind .dot = false := c.not_atKind orderly (by cases place <;> rfl)
  simp only [dottedStep, run_bind, run_get, noDot, Bool.false_and]
  rfl

private theorem bracketsStep_declines (type : NameText) {place : Place}
    (closed : c.rest = [] ∨ Orderly place c.rest) : bracketsStep type c = (none, c) := by
  have noBracket : c.atKind .openBracket = false := by
    rcases closed with atEnd | orderly
    · simp [Cursor.atKind, Cursor.kind?, atEnd]
    · exact c.not_atKind orderly (by cases place <;> rfl)
  simp only [bracketsStep, run_bind, run_get, noBracket, Bool.false_and]
  rfl

/-- A word that no type arguments follow is read as a type. -/
theorem typeRef?_word {token : Token} {rest : List Token} (found : c.rest = token :: rest)
    (isWord : token.kind = .ident) (orderly : Orderly .operator rest)
    (noArguments : c.next.atKind .less = false) :
    typeRef? c = (some ⟨token.text, ⟨token.span.start, token.span.stop⟩⟩, c.next) := by
  rw [← c.rest_next found] at orderly
  have atWord : c.atKind .ident = true := c.atKind_of_rest found isWord
  simp only [typeRef?, qualifiedName, run_bind, run_get, atWord, expect_eq found isWord,
    iterate_of_none (dottedStep_declines _ orderly), run_pure, noArguments, Bool.false_eq_true,
    iterate_of_none (bracketsStep_declines _ (.inr orderly)), ite_true, ite_false]

/-- Nothing is left, or an operand follows: this is how type arguments end in a formula. -/
def AtOperand (c : Cursor) : Prop := c.rest = [] ∨ Orderly .operand c.rest

theorem AtOperand.not_atKind {kind : TokenKind} (atOperand : AtOperand c)
    (unfit : kind.fits .operand = false) : c.atKind kind = false := by
  rcases atOperand with atEnd | orderly
  · simp [Cursor.atKind, Cursor.kind?, atEnd]
  · exact c.not_atKind orderly unfit

theorem groupTextStep_reads {token : Token} {rest : List Token} (opening closing : TokenKind)
    (group : GroupText) (isOpen : group.complete = false) (found : c.rest = token :: rest) :
    ∃ next, groupTextStep opening closing group c = (some next, c.next) ∧
      next.depth = depthAfter opening closing token.kind group.depth ∧
      next.complete = (next.depth == 0) := by
  refine ⟨⟨depthAfter opening closing token.kind group.depth,
    group.text ++ token.text ++ if token.kind = .comma then " " else "", token.span.stop,
    depthAfter opening closing token.kind group.depth == 0⟩, ?_, rfl, rfl⟩
  simp only [groupTextStep, isOpen, run_bind, run_pure, advance?, found, List.head?_cons,
    Bool.false_eq_true, ite_false]

/-- An open group of angle brackets ends with the text or with a `>` that an operand
follows. -/
private theorem groupText_within (limit : Nat) (group : GroupText) {place : Place}
    (within : c.left ≤ limit) (isOpen : group.complete = false) (deep : 0 < group.depth)
    (orderly : Orderly place c.rest) :
    AtOperand (iterateWithin (groupTextStep .less .greater) limit group c).2 := by
  induction limit generalizing group c place with
  | zero => exact .inl (List.length_eq_zero_iff.mp (Nat.le_zero.mp within))
  | succ limit ih =>
    rw [iterateWithin, run_bind]
    cases found : c.rest with
    | nil =>
      have ended : groupTextStep .less .greater group c = (none, c) := by
        simp [groupTextStep, isOpen, run_bind, run_pure, advance?, found, Cursor.next]
      rw [ended]
      exact .inl found
    | cons token rest =>
      have left : c.next.rest = rest := c.rest_next found
      obtain ⟨next, read, depth, complete⟩ :=
        groupTextStep_reads .less .greater group isOpen found
      rw [read]
      rw [found] at orderly
      by_cases ends : next.depth = 0
      · -- Only `>` makes a group less deep, and in a formula `>` is an operator.
        have isGreater : token.kind = .greater := by
          rw [depth, depthAfter] at ends
          split at ends
          · omega
          · split at ends
            · assumption
            · omega
        have operand : Orderly .operand c.next.rest := by
          rw [left]
          exact orderly.of_joins (by rw [isGreater]; rfl) (by rw [isGreater]; rfl)
        have stops : groupTextStep .less .greater next c.next = (none, c.next) := by
          simp [groupTextStep, complete, ends, run_pure]
        simp only [iterateWithin_of_none stops limit]
        exact .inr operand
      · obtain ⟨further, orderlyRest⟩ := orderly.tail
        rw [← left] at orderlyRest
        have isOpenStill : next.complete = false := by simpa [complete] using ends
        have shorter : c.next.left ≤ limit := by
          simp only [Cursor.left, left, found, List.length_cons] at within ⊢
          omega
        exact ih next shorter isOpenStill (Nat.pos_of_ne_zero ends) orderlyRest

private theorem groupText_atOperand (orderly : Orderly .operator c.rest)
    (atLess : c.atKind .less = true) : AtOperand (groupText .less .greater c).2 := by
  obtain ⟨token, rest, found, isLess⟩ := c.exists_of_atKind atLess
  obtain ⟨next, read, depth, complete⟩ :=
    groupTextStep_reads .less .greater ⟨0, "", c.here, false⟩ rfl found
  have one : next.depth = 1 := by rw [depth, isLess]; rfl
  -- The first token opens the group, so it is open in front of an operand.
  have isOpen : next.complete = false := by rw [complete, one]; rfl
  have operand : Orderly .operand c.next.rest := by
    rw [found] at orderly
    rw [c.rest_next found]
    exact orderly.of_joins (by rw [isLess]; rfl) (by rw [isLess]; rfl)
  have within : c.next.left ≤ rest.length := Nat.le_of_eq (congrArg List.length (c.rest_next found))
  have closed := groupText_within rest.length next within isOpen (by omega) operand
  have unrolled : (groupText .less .greater c).2 =
      (iterateWithin (groupTextStep .less .greater) rest.length next c.next).2 := by
    have left : c.left = rest.length + 1 := by rw [Cursor.left, found, List.length_cons]
    simp only [groupText, iterate, run_bind, run_get, run_pure, left, iterateWithin, read]
  rw [unrolled]
  exact closed

/-- What is read as a type in a formula is no type of a cast: it is no primitive type,
or an operand follows it. -/
def NoCast (type : TypeRef) (c : Cursor) : Prop :=
  (type.text ∉ primitiveTypes ∧ Orderly .operator c.rest) ∨ AtOperand c

private theorem typeRef?_noCast {type : TypeRef} (orderly : Orderly .operand c.rest)
    (read : (typeRef? c).1 = some type) : NoCast type (typeRef? c).2 := by
  cases atWord : c.atKind .ident with
  | false =>
    simp only [typeRef?, run_bind, run_get, atWord] at read
    cases read
  | true =>
    obtain ⟨token, rest, found, isWord⟩ := c.exists_of_atKind atWord
    rw [found] at orderly
    cases orderly with
    | literal is => simp [isWord] at is
    | opening is => rw [isWord] at is; cases is
    | sign sign is => rw [isWord] at is; cases sign <;> cases is
    | word _ _ notPrimitive operator =>
      cases arguments : c.next.atKind .less with
      | false =>
        rw [typeRef?_word found isWord operator arguments] at read ⊢
        cases read
        exact .inl ⟨notPrimitive, by rwa [c.rest_next found]⟩
      | true =>
        -- A comparison that looks like type arguments: an operand follows its `>`.
        have operator' : Orderly .operator c.next.rest := by rwa [c.rest_next found]
        have closed := groupText_atOperand operator' arguments
        have ended : (typeRef? c).2 = (groupText .less .greater c.next).2 := by
          simp only [typeRef?, qualifiedName, run_bind, run_get, atWord, expect_eq found isWord,
            iterate_of_none (dottedStep_declines _ operator'), run_pure, arguments,
            iterate_of_none (bracketsStep_declines _ closed), ite_true]
        rw [ended]
        exact .inr closed

private theorem joined_not_primitive (first second : String) :
    first ++ " & " ++ second ∉ primitiveTypes := by
  intro member
  have plain : ∀ name ∈ primitiveTypes, '&' ∉ name.toList := by decide
  apply plain _ member
  simp [String.toList_append]

private theorem castTypeStep_noCast (type : Option TypeRef) (c : Cursor)
    (noCast : ∀ found ∈ type, NoCast found c) :
    ∀ found ∈ (castTypeStep type c).1.getD type, NoCast found (castTypeStep type c).2 := by
  cases type with
  | none =>
    intro found member
    cases member
  | some type =>
    have unread := noCast type rfl
    cases atAmp : c.atKind .amp with
    | false =>
      simp only [castTypeStep, run_bind, run_get, atAmp]
      exact noCast
    | true =>
      obtain ⟨token, rest, found, isAmp⟩ := c.exists_of_atKind atAmp
      -- An operand follows on `&`, so the bound is no more a cast than the type was.
      have operand : Orderly .operand c.next.rest := by
        rcases unread with ⟨-, operator⟩ | atOperand
        · rw [found] at operator
          rw [c.rest_next found]
          exact operator.of_joins (by rw [isAmp]; rfl) (by rw [isAmp]; rfl)
        · rw [atOperand.not_atKind rfl] at atAmp
          cases atAmp
      simp only [castTypeStep, run_bind, run_get, atAmp, run_advance, ite_true]
      cases read : (typeRef? c.next).1 with
      | none =>
        intro found member
        cases member
      | some bound =>
        intro found member
        cases member
        rcases typeRef?_noCast operand read with ⟨-, operator⟩ | atOperand
        · exact .inl ⟨joined_not_primitive _ _, operator⟩
        · exact .inr atOperand

/-- What stands in parentheses in a formula is no cast. -/
private theorem castType?_declines (orderly : Orderly .operand c.rest) :
    (castType? c).1 = none := by
  have noCast := iterate_keeps castTypeStep_noCast (typeRef? c).1 (typeRef? c).2
    fun type read => typeRef?_noCast orderly read
  simp only [castType?, run_bind, run_get, run_pure]
  rw [Option.filter_eq_none_iff]
  intro type read isCast
  obtain ⟨atClosing, atCastOperand⟩ := Bool.and_eq_true_iff.mp isCast
  rcases noCast type read with ⟨notPrimitive, operator⟩ | atOperand
  · -- A parenthesis closes behind the name, and then no operand follows.
    obtain ⟨token, rest, found, isClosing⟩ := Cursor.exists_of_atKind atClosing
    rw [found] at operator
    have noOperand := Cursor.not_atCastOperand found (operator.of_closing isClosing) notPrimitive
    rw [noOperand] at atCastOperand
    cases atCastOperand
  · -- At an operand no parenthesis closes.
    rw [atOperand.not_atKind rfl] at atClosing
    cases atClosing

theorem cast?_declines (nested : Form → Parser Expr) (orderly : Orderly .operand c.next.rest) :
    cast? nested c = (none, c) := by
  simp only [cast?, run_bind, run_get, run_advance, castType?_declines orderly]
  rfl

end Parser

end MethodContracts.Source
