import MethodContracts.Proofs.Source.DeclarationProgress
import MethodContracts.Proofs.Source.Steps

/-!
# Repetitions end by themselves

Every step of a repetition that goes on reads a token, and no step is taken at the end of the
tokens. So the bound on a repetition is never what ends it: each satisfies the equation of a
repetition without a bound.
-/
namespace MethodContracts.Source
namespace Parser

open Cursor

variable {α β : Type} {c : Cursor}

/-- From this cursor the step declines or reads a token. -/
def Takes (step : Parser (Option α)) (c : Cursor) : Prop :=
  (step c).1 ≠ none → (step c).2.left < c.left

/-- A step that may be repeated without a bound. -/
structure Winds (step : Parser (Option α)) : Prop where
  declines : ∀ c : Cursor, c.rest = [] → step c = (none, c)
  consumes : ∀ c : Cursor, step.Takes c

/-- A step that goes on has read a token. -/
theorem Takes.left_lt {step : Parser (Option α)} {value : α} (takes : step.Takes c)
    (taken : (step c).1 = some value) : (step c).2.left < c.left :=
  takes (by rw [taken]; exact Option.some_ne_none value)

/-! ## The equations -/

/-- Any two bounds that the tokens left do not exceed are as good as each other. -/
private theorem iterateWithin_eq {step : α → Parser (Option α)}
    (winds : ∀ value, (step value).Winds)
    {limit limit' : Nat} {value : α} (enough : c.left ≤ limit) (enough' : c.left ≤ limit') :
    iterateWithin step limit value c = iterateWithin step limit' value c := by
  -- Where no token is left, every bound gives the value back.
  have alone {c : Cursor} (atEnd : c.left = 0) (value : α) (limit : Nat) :
      iterateWithin step limit value c = (value, c) := by
    cases limit with
    | zero => rfl
    | succ limit =>
      have declined := (winds value).declines c (List.length_eq_zero_iff.mp atEnd)
      simp only [iterateWithin, run_bind, declined, run_pure]
  induction limit generalizing limit' value c with
  | zero => rw [alone (Nat.le_zero.mp enough), alone (Nat.le_zero.mp enough)]
  | succ limit ih =>
    cases limit' with
    | zero => rw [alone (Nat.le_zero.mp enough'), alone (Nat.le_zero.mp enough')]
    | succ limit' =>
      simp only [iterateWithin, run_bind]
      cases taken : (step value c).1 with
      | none => rfl
      | some next =>
        -- The step has read a token, so both limits are still enough behind it.
        have fewer := ((winds value).consumes c).left_lt taken
        exact ih (by omega) (by omega)

/-- A repetition takes a step, and is repeated from there if the step goes on. -/
theorem iterate_eq {step : α → Parser (Option α)} (winds : ∀ value, (step value).Winds)
    (value : α) : iterate step value = (do
      match ← step value with
      | none => pure value
      | some next => iterate step next) := by
  funext c
  -- A larger bound is taken first, so that one step can be taken out of it.
  have unbounded : iterate step value c = iterateWithin step (c.left + 1) value c :=
    iterateWithin_eq winds (Nat.le_refl _) (Nat.le_succ _)
  rw [unbounded]
  simp only [iterateWithin, run_bind]
  cases taken : (step value c).1 with
  | none => rfl
  | some next =>
    have fewer := ((winds value).consumes c).left_lt taken
    exact iterateWithin_eq winds (Nat.le_of_lt fewer) (Nat.le_refl _)

private theorem collectWithin_eq {step : Parser (Option (List α))} (winds : step.Winds)
    {limit limit' : Nat} (enough : c.left ≤ limit) (enough' : c.left ≤ limit') :
    collectWithin step limit c = collectWithin step limit' c := by
  have alone {c : Cursor} (atEnd : c.left = 0) (limit : Nat) :
      collectWithin step limit c = ([], c) := by
    cases limit with
    | zero => rfl
    | succ limit =>
      have declined := winds.declines c (List.length_eq_zero_iff.mp atEnd)
      simp only [collectWithin, run_bind, declined, run_pure]
  induction limit generalizing limit' c with
  | zero => rw [alone (Nat.le_zero.mp enough), alone (Nat.le_zero.mp enough)]
  | succ limit ih =>
    cases limit' with
    | zero => rw [alone (Nat.le_zero.mp enough'), alone (Nat.le_zero.mp enough')]
    | succ limit' =>
      simp only [collectWithin, run_bind]
      cases taken : (step c).1 with
      | none => rfl
      | some values =>
        have fewer := (winds.consumes c).left_lt taken
        simp only [run_bind]
        rw [ih (show (step c).2.left ≤ limit by omega) (show (step c).2.left ≤ limit' by omega)]

/-- Collecting takes what a step yields and what is collected from there. -/
theorem collect_eq {step : Parser (Option (List α))} (winds : step.Winds) :
    collect step = (do
      match ← step with
      | none => pure []
      | some values => return values ++ (← collect step)) := by
  funext c
  have unbounded : collect step c = collectWithin step (c.left + 1) c :=
    collectWithin_eq winds (Nat.le_refl _) (Nat.le_succ _)
  rw [unbounded]
  simp only [collectWithin, run_bind]
  cases taken : (step c).1 with
  | none => rfl
  | some values =>
    have fewer := (winds.consumes c).left_lt taken
    have rest : collectWithin step c.left (step c).2 = collect step (step c).2 :=
      collectWithin_eq winds (Nat.le_of_lt fewer) (Nat.le_refl _)
    simp only [run_bind, rest]

/-! ## Steps that read -/

/-- From this cursor the parser reads a token. -/
def Consumes (parser : Parser α) (c : Cursor) : Prop := (parser c).2.left < c.left

theorem Consumes.bind {parser : Parser α} {next : α → Parser β} (first : parser.Consumes c)
    (rest : ∀ value, (next value).Moves) : (parser >>= next).Consumes c :=
  Nat.lt_of_le_of_lt (rest _ _).left_le first

theorem Consumes.bind_pure {parser : Parser α} {f : α → β} (reads : parser.Consumes c) :
    (parser >>= fun value => pure (f value)).Consumes c := reads

/-- What is read later may also be what is read first. -/
theorem Consumes.after {parser : Parser α} {next : α → Parser β} (moves : parser.Moves)
    (rest : (next (parser c).1).Consumes (parser c).2) : (parser >>= next).Consumes c :=
  Nat.lt_of_lt_of_le rest (moves c).left_le

theorem Consumes.assoc {γ : Type} {first : Parser γ} {parser : γ → Parser α}
    {next : α → Parser β} (reads : ((first >>= parser) >>= next).Consumes c) :
    (first >>= fun value => parser value >>= next).Consumes c := reads

theorem Consumes.get {next : Cursor → Parser α} (rest : (next c).Consumes c) :
    (get >>= next).Consumes c := rest

theorem Consumes.ite {condition : Prop} [Decidable condition] {first second : Parser α}
    (whenTrue : condition → first.Consumes c) (whenFalse : ¬condition → second.Consumes c) :
    Consumes (if condition then first else second) c := by
  split
  next holds => exact whenTrue holds
  next fails => exact whenFalse fails

theorem Consumes.discard {parser : Parser α} (reads : parser.Consumes c) :
    Consumes (discard parser) c := reads

/-- What reads something, or else gives up a token, reads a token. -/
theorem Consumes.or_else {parser : Parser α} (stays : Cursor → Bool)
    {giveUp goOn : α → Parser β} (moves : parser.Moves)
    (staying : ∀ c' : Cursor, c'.left = c.left → stays c' = true)
    (gives : ∀ value c', c'.left = c.left → (giveUp value).Consumes c')
    (givingMoves : ∀ value, (giveUp value).Moves) (goingMoves : ∀ value, (goOn value).Moves) :
    Consumes (do
      let value ← parser
      let after ← MonadState.get
      if stays after then giveUp value else goOn value) c := by
  -- Either it reads something itself, or it stays and what gives up reads.
  rcases Nat.lt_or_ge (parser c).2.left c.left with fewer | all
  · have reads : parser.Consumes c := fewer
    apply reads.bind
    intro value
    apply Along.get_bind
    intro after
    apply Along.ite
    · exact givingMoves value
    · exact goingMoves value
  · have same := Nat.le_antisymm (moves c).left_le all
    apply Consumes.after moves
    apply Consumes.ite
    · exact fun _ => gives _ _ same
    · exact fun goes => absurd (staying _ same) goes

theorem advance_reads (nonempty : c.rest ≠ []) : advance.Consumes c := by
  obtain ⟨token, rest, found⟩ := List.exists_cons_of_ne_nil nonempty
  exact c.left_next found

theorem Consumes.advance_bind {rest : Parser α} (nonempty : c.rest ≠ []) (moves : rest.Moves) :
    (advance >>= fun _ => rest).Consumes c := (advance_reads nonempty).bind fun _ => moves

theorem advanceBy_reads (count : Nat) (nonempty : c.rest ≠ []) :
    (advanceBy (count + 1)).Consumes c := .advance_bind nonempty (advanceBy_moves count)

/-- Where a token of the kind stands, it is read. -/
theorem expect_atKind_reads {kind : TokenKind} (atIt : c.atKind kind = true) :
    (expect kind).Consumes c := by
  obtain ⟨token, rest, found, isKind⟩ := exists_of_atKind atIt
  unfold Consumes
  rw [expect_eq found isKind]
  exact c.left_next found

theorem skipGroup_reads {opening : TokenKind} (closing : TokenKind)
    (atIt : c.atKind opening = true) : (skipGroup opening closing).Consumes c := by
  apply Consumes.ite
  · intro _
    apply Consumes.advance_bind (rest_ne_nil atIt)
    exact discard_moves (iterate_moves (skipGroupStep_moves opening closing) 1)
  · exact fun notAtIt => absurd atIt notAtIt

/-- A repetition reads if its first step does. -/
theorem Consumes.iterate {step : α → Parser (Option α)} {value : α}
    (first : (step value).Consumes c)
    (winds : ∀ value, (step value).Winds) (moves : ∀ value, (step value).Moves) :
    (Parser.iterate step value).Consumes c := by
  rw [iterate_eq winds]
  apply first.bind
  intro next
  cases next with
  | none => exact .pure value
  | some next => exact iterate_moves moves next

/-! ## Steps that read unless they decline -/

theorem Takes.none : Takes (pure (none : Option α)) c := fun taken => absurd rfl taken

theorem Takes.of_reads {step : Parser (Option α)} (reads : step.Consumes c) : step.Takes c :=
  fun _ => reads

theorem Takes.get {next : Cursor → Parser (Option α)} (rest : (next c).Takes c) :
    (get >>= next).Takes c := rest

theorem Takes.bind {parser : Parser β} {next : β → Parser (Option α)} (moves : parser.Moves)
    (rest : ∀ value c', (next value).Takes c') : (parser >>= next).Takes c :=
  fun taken => Nat.lt_of_lt_of_le (rest _ _ taken) (moves c).left_le

theorem Takes.ite {condition : Prop} [Decidable condition] {first second : Parser (Option α)}
    (whenTrue : condition → first.Takes c) (whenFalse : ¬condition → second.Takes c) :
    Takes (if condition then first else second) c := by
  split
  next holds => exact whenTrue holds
  next fails => exact whenFalse fails

section Tests

variable {condition : Cursor → Bool} {body : Cursor → Parser (Option α)}

/-- A step that reads where its test holds, and is not taken elsewhere. -/
theorem Winds.when (ends : ∀ c : Cursor, c.rest = [] → condition c = false)
    (takes : ∀ c : Cursor, condition c = true → (body c).Takes c) :
    Winds (do let c ← get; if condition c then body c else return none) where
  declines c atEnd := by
    rw [run_bind, run_get, if_neg (by rw [ends c atEnd]; exact Bool.false_ne_true), run_pure]
  consumes c := .get <| .ite (takes c) fun _ => .none

/-- A step that is not taken where its test holds, and reads elsewhere. -/
theorem Winds.unless (ends : ∀ c : Cursor, c.rest = [] → condition c = true)
    (takes : ∀ c : Cursor, ¬condition c = true → (body c).Takes c) :
    Winds (do let c ← get; if condition c then return none else body c) where
  declines c atEnd := by
    rw [run_bind, run_get, if_pos (ends c atEnd), run_pure]
  consumes c := .get <| .ite (fun _ => .none) (takes c)

end Tests

theorem atKind_atEnd (atEnd : c.rest = []) (kind : TokenKind) : c.atKind kind = false := by
  simp [atKind, kind?, atEnd]

theorem atWord_atEnd (atEnd : c.rest = []) (word : String) : c.atWord word = false := by
  simp [atWord, nthWord, atEnd]

theorem atKind_of_atWord {word : String} (atIt : c.atWord word = true) :
    c.atKind .ident = true := by
  unfold atWord nthWord at atIt
  cases found : c.rest with
  | nil => simp [found] at atIt
  | cons token rest =>
    simp only [found, List.getElem?_cons_zero, Bool.and_eq_true, beq_iff_eq] at atIt
    exact c.atKind_of_rest found atIt.1

private theorem rest_ne_nil_of_atWord {word : String} (atIt : c.atWord word = true) : c.rest ≠ [] :=
  rest_ne_nil (atKind_of_atWord atIt)

theorem atEnd_of_rest (atEnd : c.rest = []) : c.atEnd = true := List.isEmpty_iff.mpr atEnd

theorem rest_ne_nil_of_not_atEnd (notAtEnd : ¬c.atEnd = true) : c.rest ≠ [] :=
  fun atEnd => notAtEnd (atEnd_of_rest atEnd)

/-- Where as many tokens are left as before the end, this is not the end. -/
private theorem rest_ne_nil_of_left {c' : Cursor} (notAtEnd : ¬c.atEnd = true)
    (same : c'.left = c.left) : c'.rest ≠ [] := by
  intro atEnd
  rw [left, atEnd, List.length_nil] at same
  exact rest_ne_nil_of_not_atEnd notAtEnd (List.length_eq_zero_iff.mp same.symm)

/-! ## The steps of groups, names and annotations -/

theorem skipStep_winds (go : Cursor → Bool) (value : Unit) : (skipStep go value).Winds := by
  apply Winds.unless
  · intro c atEnd
    rw [atEnd_of_rest atEnd, Bool.true_or]
  · intro c goes
    rw [Bool.or_eq_true, not_or] at goes
    apply Takes.of_reads
    exact (advance_reads (rest_ne_nil_of_not_atEnd goes.1)).bind_pure

private theorem advance?_reads {token : Token} {rest : List Token}
    (found : c.rest = token :: rest) : advance?.Consumes c := c.left_next found

private theorem advance?_atEnd (atEnd : c.rest = []) : advance? c = (none, c) := by
  simp [advance?, next, atEnd]

/-- A step that reads one token, unless a test stops it or there is none. -/
theorem Winds.token {stops : Prop} [Decidable stops] (value : Token → α) :
    Winds (if stops then pure none else do
      match ← advance? with
      | none => pure none
      | some token => pure (some (value token))) where
  declines c atEnd := by
    split
    · rfl
    · rw [run_bind, advance?_atEnd atEnd]
      rfl
  consumes c := by
    apply Takes.ite
    · exact fun _ => .none
    intro _
    cases found : c.rest with
    | nil =>
      intro taken
      rw [run_bind, advance?_atEnd found] at taken
      exact absurd rfl taken
    | cons token rest =>
      apply Takes.of_reads
      apply (advance?_reads found).bind
      intro token
      cases token with
      | none => exact .pure none
      | some token => exact .pure _

theorem skipGroupStep_winds (opening closing : TokenKind) (depth : Nat) :
    (skipGroupStep opening closing depth).Winds := .token _

theorem groupTextStep_winds (opening closing : TokenKind) (group : GroupText) :
    (groupTextStep opening closing group).Winds := .token _

theorem dottedStep_winds (name : NameText) : (dottedStep name).Winds := by
  apply Winds.when
  · intro c atEnd
    rw [atKind_atEnd atEnd, Bool.false_and]
  · intro c atDot
    rw [Bool.and_eq_true] at atDot
    apply Takes.of_reads
    apply Consumes.advance_bind (rest_ne_nil atDot.1)
    exact (expect_moves .ident).bind_pure

theorem bracketsStep_winds (type : NameText) : (bracketsStep type).Winds := by
  apply Winds.when
  · intro c atEnd
    rw [atKind_atEnd atEnd, Bool.false_and]
  · intro c atOpening
    rw [Bool.and_eq_true] at atOpening
    apply Takes.of_reads
    apply Consumes.advance_bind (rest_ne_nil atOpening.1)
    exact (expect_moves .closeBracket).bind_pure

theorem castTypeStep_winds (type : Option TypeRef) : (castTypeStep type).Winds := by
  cases type with
  | none => exact ⟨fun _ _ => rfl, fun _ => .none⟩
  | some type =>
    apply Winds.when
    · exact fun c atEnd => atKind_atEnd atEnd _
    · intro c atAmp
      apply Takes.of_reads
      apply Consumes.advance_bind (rest_ne_nil atAmp)
      apply Along.bind
      · exact typeRef?_moves
      intro bound
      cases bound with
      | none => exact .pure _
      | some bound => exact .pure _

theorem valueStep_winds (value : ValueText) : (valueStep value).Winds where
  declines c atEnd := by simp only [valueStep, run_bind, run_get, atEnd, run_pure]
  consumes c := by
    apply Takes.get
    split
    next => exact .none
    next token rest found =>
      have nonempty : c.rest ≠ [] := found ▸ List.cons_ne_nil _ _
      apply Takes.ite
      · exact fun _ => .none
      · exact fun _ => .of_reads (advance_reads nonempty).bind_pure

/-- A value is empty only in front of a comma or of the closing parenthesis. -/
private theorem annotationValue_reads (nonempty : c.rest ≠ [])
    (notAtClosing : ¬c.atKind .closeParen = true)
    (notAtComma : ¬c.atKind .comma = true) : annotationValue.Consumes c := by
  apply Consumes.ite
  · intro atString
    rw [Bool.and_eq_true] at atString
    exact (expect_atKind_reads atString.1).bind_pure
  · intro _
    -- The first token is neither of the two, so the first step takes it.
    have first : (valueStep ⟨[], 0⟩).Consumes c := by
      obtain ⟨token, rest, found⟩ := List.exists_cons_of_ne_nil nonempty
      have goes : ¬(token.kind = .comma ∨ token.kind = .closeParen) := fun stops =>
        stops.elim (fun isComma => notAtComma (c.atKind_of_rest found isComma))
          fun isClosing => notAtClosing (c.atKind_of_rest found isClosing)
      unfold Consumes valueStep
      simp only [run_bind, run_get, found, true_and, if_neg goes]
      exact advance_reads nonempty
    exact (first.iterate valueStep_winds valueStep_moves).bind_pure

private theorem argumentName_reads (named : (c.atKind .ident && c.atNth 1 .assign) = true) :
    argumentName.Consumes c := by
  apply Consumes.ite
  · intro _
    rw [Bool.and_eq_true] at named
    apply (expect_atKind_reads named.1).bind
    intro name
    exact Along.bind_pure advance_moves
  · exact fun unnamed => absurd named unnamed

private theorem argumentName_eq_none (unnamed : ¬(c.atKind .ident && c.atNth 1 .assign) = true) :
    argumentName c = (none, c) := by
  rw [argumentName, run_bind, run_get, if_neg unnamed, run_pure]

private theorem annotationArgument_reads (nonempty : c.rest ≠ [])
    (notAtClosing : ¬c.atKind .closeParen = true) (notAtComma : ¬c.atKind .comma = true) :
    annotationArgument.Consumes c := by
  apply Consumes.get
  by_cases named : (c.atKind .ident && c.atNth 1 .assign) = true
  · apply (argumentName_reads named).bind
    intro name
    apply Along.bind
    · exact annotationValue_moves
    intro value
    exact Along.get.bind_pure
  · apply Consumes.after argumentName_moves
    rw [argumentName_eq_none named]
    apply (annotationValue_reads nonempty notAtClosing notAtComma).bind
    intro value
    exact Along.get.bind_pure

/-- In front of a comma there is nothing to read. -/
private theorem annotationArgument_atComma (atComma : c.atKind .comma = true) :
    (annotationArgument c).2 = c := by
  obtain ⟨token, rest, found, isComma⟩ := exists_of_atKind atComma
  have kind_eq : c.kind? = some .comma := by simp [kind?, found, isComma]
  have unnamed : ¬(c.atKind .ident && c.atNth 1 .assign) = true := by simp [atKind, kind_eq]
  have notString : ¬(c.atKind .string && (c.atNth 1 .comma || c.atNth 1 .closeParen)) = true := by
    simp [atKind, kind_eq]
  have declined : valueStep ⟨[], 0⟩ c = (none, c) := by
    simp [valueStep, run_bind, run_get, found, isComma, run_pure]
  have empty : (annotationValue c).2 = c := by
    rw [annotationValue, run_bind, run_get, if_neg notString, run_bind,
      iterate_eq valueStep_winds, run_bind, declined]
    rfl
  -- There is neither a name nor a value to read.
  rw [annotationArgument, run_bind, run_get, run_bind, argumentName_eq_none unnamed]
  exact empty

private theorem skip_reads {kind : TokenKind} (atIt : c.atKind kind = true) :
    (skip kind).Consumes c := by
  have skipped : skip kind c = ((), c.next) := by rw [skip, if_pos atIt]
  rw [Consumes, skipped]
  exact advance_reads (rest_ne_nil atIt)

/-- An argument is read, or else the comma behind it. -/
theorem annotationArgumentStep_winds : annotationArgumentStep.Winds := by
  apply Winds.unless
  · intro c atEnd
    rw [atEnd_of_rest atEnd, Bool.true_or]
  · intro c more
    rw [Bool.or_eq_true, not_or] at more
    apply Takes.of_reads
    by_cases atComma : c.atKind .comma = true
    · apply Consumes.after annotationArgument_moves
      rw [annotationArgument_atComma atComma]
      exact (skip_reads atComma).bind_pure
    · have nonempty := rest_ne_nil_of_not_atEnd more.1
      apply (annotationArgument_reads nonempty more.2 atComma).bind
      intro argument
      exact Along.bind_pure (skip_moves .comma)

theorem annotation_reads (atSign : c.atKind .atSign = true) : annotation.Consumes c := by
  obtain ⟨rest, split, moves⟩ := annotation_eq_bind (R := Before)
  rw [split]
  exact (expect_atKind_reads atSign).bind moves

theorem modifierStep_winds : modifierStep.Winds where
  declines c atEnd := by
    have noWord : ¬c.atModifier = true := by simp [atModifier, atKind_atEnd atEnd]
    rw [modifierStep, run_bind, run_get, if_neg (by simp [atKind_atEnd atEnd]), if_neg noWord,
      run_pure]
  consumes c := by
    apply Takes.get
    apply Takes.ite
    · intro atSign
      apply Takes.ite
      · exact fun _ => .none
      · exact fun _ => .of_reads (annotation_reads atSign).bind_pure
    intro _
    apply Takes.ite
    · intro atModifier
      -- A modifier is a word, and each of its three forms begins with one token that is read.
      unfold Cursor.atModifier at atModifier
      rw [Bool.and_eq_true] at atModifier
      have nonempty := rest_ne_nil atModifier.1
      apply Takes.ite
      · exact fun _ => .of_reads (advanceBy_reads 2 nonempty).bind_pure
      intro _
      apply Takes.ite
      · exact fun _ => .none
      · exact fun _ => .of_reads (advance_reads nonempty).bind_pure
    · exact fun _ => .none

theorem variableModifierStep_winds (value : Unit) : (variableModifierStep value).Winds where
  declines c atEnd := by
    rw [variableModifierStep, run_bind, run_get, if_neg (by simp [atKind_atEnd atEnd]),
      if_neg (by simp [atWord_atEnd atEnd]), run_pure]
  consumes c := by
    apply Takes.get
    apply Takes.ite
    · exact fun atSign => .of_reads (annotation_reads atSign).discard.bind_pure
    intro _
    apply Takes.ite
    · exact fun atFinal => .of_reads (advance_reads (rest_ne_nil_of_atWord atFinal)).bind_pure
    · exact fun _ => .none

/-! ## The steps of expressions -/

private theorem instanceOf_reads (operand : Expr) (nonempty : c.rest ≠ []) :
    (instanceOf operand).Consumes c := by
  obtain ⟨rest, split, moves⟩ := instanceOf_eq_bind (R := Before) operand
  rw [split]
  exact .advance_bind nonempty moves

theorem dimensionStep_winds (value : Unit) : (dimensionStep value).Winds := by
  apply Winds.when
  · exact fun c atEnd => atKind_atEnd atEnd _
  · exact fun c atOpening => .of_reads (skipGroup_reads _ atOpening).bind_pure

section Forms

variable {nested : Form → Parser Expr} (moves : ∀ form, (nested form).Moves)
include moves

/-- An argument is read, or else the token that begins none. -/
theorem argumentStep_winds : (argumentStep nested).Winds := by
  apply Winds.unless
  · intro c atEnd
    rw [atEnd_of_rest atEnd, Bool.true_or]
  · intro c more
    rw [Bool.or_eq_true, not_or] at more
    apply Takes.of_reads
    apply Consumes.or_else (fun after => after.atKind .comma || after.left == c.left)
      (moves .assignment)
    · intro c' same
      rw [same, beq_self_eq_true, Bool.or_true]
    · intro argument c' same
      exact (advance_reads (rest_ne_nil_of_left more.1 same)).bind_pure
    · exact fun argument => Along.bind_pure advance_moves
    · exact fun argument => .pure _

private theorem argumentList_reads (atOpening : c.atKind .openParen = true) :
    (argumentList nested).Consumes c := by
  obtain ⟨rest, split, moves⟩ := argumentList_eq_bind moves
  rw [split]
  exact (expect_atKind_reads atOpening).bind moves

theorem postfixedStep_winds (expr : Expr) : (postfixedStep nested expr).Winds where
  declines c atEnd := by simp only [postfixedStep, run_bind, run_get, atEnd, run_pure]
  consumes c := by
    apply Takes.get
    split
    next => exact .none
    next token rest found =>
      have nonempty : c.rest ≠ [] := found ▸ List.cons_ne_nil _ _
      -- By the kind of the token: each branch begins by reading it, or declines.
      split
      next isDot =>
        apply Takes.ite
        · intro _
          apply Takes.of_reads
          apply Consumes.advance_bind nonempty
          exact (expect_moves .ident).bind_pure
        · exact fun _ => .none
      next isOpening =>
        have atOpening := c.atKind_of_rest found isOpening
        apply Takes.of_reads
        apply (argumentList_reads moves atOpening).bind
        rintro ⟨arguments, stop⟩
        exact .pure _
      next isBracket =>
        apply Takes.of_reads
        apply Consumes.advance_bind nonempty
        apply Along.bind
        · exact moves .assignment
        intro position
        exact (expect_moves .closeBracket).bind_pure
      next isReference =>
        apply Takes.of_reads
        apply Consumes.advance_bind nonempty
        apply Along.bind
        · exact expect_moves .ident
        intro name
        exact Along.get.bind_pure
      next =>
        split
        next => exact .none
        next => exact .of_reads (advance_reads nonempty).bind_pure

theorem binaryStep_winds (minimum : Nat) (left : Expr) :
    (binaryStep nested minimum left).Winds where
  declines c atEnd := by
    have noKind : c.kind? = none := by simp [kind?, atEnd]
    rw [binaryStep, run_bind, run_get, if_neg (by simp [atWord_atEnd atEnd]), noKind]
    rfl
  consumes c := by
    apply Takes.get
    apply Takes.ite
    · intro atTest
      have nonempty := rest_ne_nil_of_atWord atTest
      apply Takes.ite
      · exact fun _ => .none
      · exact fun _ => .of_reads (instanceOf_reads left nonempty).bind_pure
    · intro _
      split
      next => exact .none
      next op known =>
        obtain ⟨token, rest, found⟩ := exists_of_kind? known
        have nonempty : c.rest ≠ [] := found ▸ List.cons_ne_nil _ _
        apply Takes.ite
        · exact fun _ => .none
        intro _
        apply Takes.of_reads
        apply Consumes.advance_bind nonempty
        exact Along.bind_pure (moves (.binary _))

end Forms

/-! ## The steps of statements -/

theorem catchStep_winds (value : Unit) : (catchStep value).Winds := by
  apply Winds.when
  · exact fun c atEnd => atWord_atEnd atEnd _
  · intro c atCatch
    apply Takes.of_reads
    apply Consumes.advance_bind (rest_ne_nil_of_atWord atCatch)
    apply Along.seq
    · exact skipGroup_moves .openParen .closeParen
    exact (skipGroup_moves .openBrace .closeBrace).bind_pure

section Statements

variable {nested : Parser (Option Stmt)} (moves : nested.Moves)
include moves

/-- A statement is read, or else the token that begins none. -/
theorem blockStep_winds : (blockStep nested).Winds := by
  apply Winds.unless
  · intro c atEnd
    rw [atEnd_of_rest atEnd, Bool.true_or]
  · intro c more
    rw [Bool.or_eq_true, not_or] at more
    apply Takes.of_reads
    apply Consumes.or_else (fun after => after.left == c.left) moves
    · intro c' same
      rw [same, beq_self_eq_true]
    · intro statement c' same
      exact (advance_reads (rest_ne_nil_of_left more.1 same)).bind_pure
    · exact fun statement => Along.bind_pure advance_moves
    · exact fun statement => .pure _

end Statements

/-! ## The steps of declarations -/

private theorem typeRef?_reads (atWord : c.atKind .ident = true) : typeRef?.Consumes c := by
  obtain ⟨rest, split, moves⟩ := typeRef?_eq_bind (R := Before)
  have named : qualifiedName.Consumes c := by
    apply (expect_atKind_reads atWord).bind
    intro first
    exact (iterate_moves dottedStep_moves _).bind_pure
  rw [split]
  apply Consumes.get
  apply Consumes.ite
  · exact fun _ => named.bind moves
  · exact fun notAtWord => absurd atWord notAtWord

theorem typeRef?_eq_none (notAtWord : ¬c.atKind .ident = true) : typeRef? c = (none, c) := by
  rw [typeRef?, run_bind, run_get, if_neg notAtWord, run_pure]

/-- Where no type is read, the token there is given up. -/
theorem paramStep_winds : paramStep.Winds := by
  obtain ⟨rest, split, absent, moves⟩ := paramStep_eq_bind (R := Before)
  rw [split]
  apply Winds.unless
  · intro c atEnd
    rw [atEnd_of_rest atEnd, Bool.true_or]
  · intro c more
    rw [Bool.or_eq_true, not_or] at more
    apply Takes.of_reads
    -- Modifiers and the type read something, or else the token that stands there is given up.
    by_cases read : Consumes (variableModifiers >>= fun _ => typeRef?) c
    · apply Consumes.assoc
      exact read.bind moves
    · -- If they read nothing, there are no modifiers, and no word to begin a type.
      have same : (variableModifiers c).2.left = c.left := by
        apply Nat.le_antisymm (variableModifiers_moves c).left_le
        apply Nat.le_of_not_lt
        intro fewer
        have reads : variableModifiers.Consumes c := fewer
        exact read (reads.bind fun _ => typeRef?_moves)
      have notAtWord : ¬(variableModifiers c).2.atKind .ident = true := by
        intro atWord
        exact read (.after variableModifiers_moves (typeRef?_reads atWord))
      apply Consumes.after variableModifiers_moves
      apply Consumes.after typeRef?_moves
      rw [typeRef?_eq_none notAtWord, absent]
      have nonempty : ((variableModifiers c).2.report .parameter).rest ≠ [] :=
        rest_ne_nil_of_left more.1 same
      apply Consumes.after (report_moves .parameter)
      apply Consumes.advance_bind nonempty
      exact Along.bind_pure (skip_moves .comma)

theorem constantStep_winds (value : Unit) : (constantStep value).Winds where
  declines c atEnd := by
    -- At the end there are no modifiers either.
    have noModifiers : modifiersAndAnnotations c = ([], c) := by
      rw [modifiersAndAnnotations, collect_eq modifierStep_winds, run_bind,
        modifierStep_winds.declines c atEnd]
      rfl
    rw [constantStep, run_bind, run_get, if_neg (by simp [atKind_atEnd atEnd]),
      if_neg (by simp [atKind_atEnd atEnd]), run_bind]
    have discarded : (discard modifiersAndAnnotations : Parser Unit) c = ((), c) :=
      congrArg (fun read : List Annotation × Cursor => ((), read.2)) noModifiers
    rw [discarded, run_bind, run_get, if_neg (by simp [atKind_atEnd atEnd]), run_pure]
  consumes c := by
    apply Takes.get
    apply Takes.ite
    · exact fun _ taken => absurd rfl taken
    intro _
    apply Takes.ite
    · exact fun _ => .none
    intro _
    apply Takes.bind (discard_moves modifiersAndAnnotations_moves)
    intro _ named
    apply Takes.get
    apply Takes.ite
    · intro atWord
      apply Takes.of_reads
      apply Consumes.advance_bind (rest_ne_nil atWord)
      apply Along.seq
      · exact skipGroup_moves .openParen .closeParen
      apply Along.seq
      · exact skipGroup_moves .openBrace .closeBrace
      apply Along.get_bind
      intro after
      apply Along.ite
      · exact advance_moves.bind_pure
      apply Along.ite
      · exact .pure none
      · exact advance_moves.bind_pure
    · exact fun _ => .none

theorem fieldStep_winds (value : Unit) : (fieldStep value).Winds := by
  apply Winds.unless
  · intro c atEnd
    rw [atEnd_of_rest atEnd, Bool.true_or]
  · intro c more
    rw [Bool.or_eq_true, not_or] at more
    apply Takes.ite
    · exact fun atOpening => .of_reads (skipGroup_reads _ atOpening).bind_pure
    · exact fun _ => .of_reads (advance_reads (rest_ne_nil_of_not_atEnd more.1)).bind_pure

section Members

variable {nested : String → Parser (Option Member)} (moves : ∀ name, (nested name).Moves)
include moves

/-- A member is read, or else the token that begins none. -/
theorem memberStep_winds (typeName : String) : (memberStep nested typeName).Winds := by
  apply Winds.unless
  · intro c atEnd
    rw [atEnd_of_rest atEnd, Bool.true_or]
  · intro c more
    rw [Bool.or_eq_true, not_or] at more
    apply Takes.of_reads
    apply Consumes.or_else (fun after => after.left == c.left) (moves typeName)
    · intro c' same
      rw [same, beq_self_eq_true]
    · intro member c' same
      exact (advance_reads (rest_ne_nil_of_left more.1 same)).bind_pure
    · exact fun member => Along.bind_pure advance_moves
    · exact fun member => .pure _

end Members

private theorem skipWhile_reads {go : Cursor → Bool} (nonempty : c.rest ≠ []) (goes : go c = true) :
    (skipWhile go).Consumes c := by
  have first : (skipStep go ()).Consumes c := by
    apply Consumes.get
    apply Consumes.ite
    · intro stops
      rw [goes, Bool.not_true, Bool.or_false] at stops
      exact absurd (List.isEmpty_iff.mp stops) nonempty
    · exact fun _ => (advance_reads nonempty).bind_pure
  exact first.iterate (skipStep_winds go) (skipStep_moves go)

theorem importStep_winds (value : Unit) : (importStep value).Winds := by
  apply Winds.when
  · intro c atEnd
    rw [atWord_atEnd atEnd, atWord_atEnd atEnd, Bool.or_false]
  · intro c atKeyword
    rw [Bool.or_eq_true] at atKeyword
    have isWord : c.atKind .ident = true := atKeyword.elim atKind_of_atWord atKind_of_atWord
    -- The keyword is a word and no semicolon, so at least it is skipped.
    have goes : (!c.atKind .semicolon) = true := by
      obtain ⟨token, rest, found, isIdent⟩ := exists_of_atKind isWord
      simp [atKind, kind?, found, isIdent]
    apply Takes.of_reads
    apply (skipWhile_reads (rest_ne_nil isWord) goes).bind
    intro _
    exact (discard_moves (expect_moves .semicolon)).bind_pure

theorem typeKind?_takes : typeKind?.Takes c := by
  apply Takes.get
  apply Takes.ite
  · intro atAnnotation
    unfold atAnnotationType at atAnnotation
    rw [Bool.and_eq_true] at atAnnotation
    exact .of_reads (advanceBy_reads 1 (rest_ne_nil atAnnotation.1)).bind_pure
  · intro _
    split
    next => exact .none
    next kind known =>
      have nonempty : c.rest ≠ [] := by
        intro atEnd
        rw [atEnd] at known
        cases known
      exact .of_reads (advance_reads nonempty).bind_pure

section Members

variable {nested : String → Parser (Option Member)} (moves : ∀ name, (nested name).Moves)
include moves

private theorem typeDecl?_takes : (typeDecl? nested).Takes c := by
  intro taken
  have before := discard_moves modifiersAndAnnotations_moves c
  simp only [typeDecl?, run_bind, run_get] at taken ⊢
  cases known : (typeKind? ((discard modifiersAndAnnotations : Parser Unit) c).2).1 with
  | none =>
    rw [known] at taken
    exact absurd rfl taken
  | some kind =>
    have read := typeKind?_takes.left_lt known
    have rest (name : Token) : Moves (do
        let body ← typeBody nested name.text (kind == .enumType)
        return some (⟨⟨kind, name.text, ⟨c.here, body.2.stop⟩, body.2⟩, body.1⟩ : TypeDecl)) :=
      (typeBody_moves moves _ _).bind_pure
    have further := (expect_moves .ident).bind rest
    exact Nat.lt_of_le_of_lt (further _).left_le (Nat.lt_of_lt_of_le read before.left_le)

omit moves in
/-- Where no type is declared the reader stands where it began. -/
private theorem typeDecl?_rest (undeclared : (typeDecl? nested c).1 = none) :
    (typeDecl? nested c).2.rest = c.rest := by
  rw [typeDecl?_undeclared undeclared]

end Members

/-- A type is read, or else the token that begins none. -/
theorem unitStep_winds : unitStep.Winds where
  declines c atEnd := by rw [unitStep, run_bind, run_get, if_pos (atEnd_of_rest atEnd), run_pure]
  consumes c := by
    apply Takes.get
    apply Takes.ite
    · exact fun _ => .none
    intro notAtEnd
    apply Takes.of_reads
    -- A declaration reads at least its keyword; without one the token is given up.
    by_cases undeclared : (typeDecl? member? c).1 = none
    · apply Consumes.after (typeDecl?_moves member?_moves)
      rw [undeclared]
      have nonempty : (typeDecl? member? c).2.rest ≠ [] :=
        typeDecl?_rest undeclared ▸ rest_ne_nil_of_not_atEnd notAtEnd
      have reads : advance.Consumes ((typeDecl? member? c).2.report .typeDeclaration) :=
        advance_reads nonempty
      apply Consumes.after (report_moves .typeDeclaration)
      exact reads.bind_pure
    · have reads : (typeDecl? member?).Consumes c := typeDecl?_takes member?_moves undeclared
      apply reads.bind
      intro decl
      cases decl with
      | none =>
        apply Along.seq
        · exact report_moves .typeDeclaration
        exact advance_moves.bind_pure
      | some decl => exact .pure _

end Parser
end MethodContracts.Source
