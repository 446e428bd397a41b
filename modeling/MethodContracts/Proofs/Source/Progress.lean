import MethodContracts.Source.Expression

/-!
# Parsers only move on

All that a parser does to a cursor is to read tokens and to report errors, or else to give up
and go back. So a relation between cursors that holds along these two steps holds along a run,
and it is for such relations that every parser is followed here. The one that is asked for most
says that the parser stands at the same token or at a later one and has every error that was
found before: an expression that is read without errors has none in any of its parts.
-/
namespace MethodContracts.Source

/-- The cursor `c'` has read on from `c` and keeps its errors. -/
structure Cursor.Before (c c' : Cursor) : Prop where
  rest : c'.rest <:+ c.rest
  errors : c.errors <+: c'.errors

namespace Cursor

variable {c c' c'' : Cursor}

theorem Before.refl (c : Cursor) : c.Before c := ⟨List.suffix_rfl, List.prefix_rfl⟩

theorem Before.trans (first : c.Before c') (second : c'.Before c'') : c.Before c'' :=
  ⟨second.rest.trans first.rest, first.errors.trans second.errors⟩

theorem Before.left_le (before : c.Before c') : c'.left ≤ c.left := before.rest.length_le

theorem before_next (c : Cursor) : c.Before c.next := by
  unfold next
  split
  next token rest found => exact ⟨found ▸ List.suffix_cons token rest, List.prefix_rfl⟩
  next => exact .refl c

theorem errors_next (c : Cursor) : c.next.errors = c.errors := by
  unfold next
  split <;> rfl

theorem before_report (c : Cursor) (wanted : Wanted) : c.Before (c.report wanted) :=
  ⟨List.suffix_rfl, List.prefix_append _ _⟩

/-- A relation that holds from one cursor to another if the second is reached by reading
tokens and reporting errors. -/
class Tracks (R : Cursor → Cursor → Prop) : Prop where
  refl (c : Cursor) : R c c
  trans {c c' c'' : Cursor} : R c c' → R c' c'' → R c c''
  next (c : Cursor) : R c c.next
  report (c : Cursor) (wanted : Wanted) : R c (c.report wanted)

/-- Where nothing else is said, the relation is that of reading on. -/
@[default_instance]
instance : Tracks Before where
  refl := .refl
  trans := .trans
  next := before_next
  report := before_report

end Cursor

namespace Parser

open Cursor

/-- From every cursor the parser moves on. -/
def Moves {α : Type} (parser : Parser α) : Prop := ∀ c : Cursor, c.Before (parser c).2

/-- From every cursor the parser goes on as the relation says. -/
def Along {α : Type} (R : Cursor → Cursor → Prop) (parser : Parser α) : Prop :=
  ∀ c : Cursor, R c (parser c).2

variable {α β : Type}

theorem run_bind (parser : Parser α) (next : α → Parser β) (c : Cursor) :
    (parser >>= next) c = next (parser c).1 (parser c).2 := rfl

theorem run_get (c : Cursor) : (get : Parser Cursor) c = (c, c) := rfl

theorem run_pure (value : α) (c : Cursor) : (pure value : Parser α) c = (value, c) := rfl

theorem run_advance (c : Cursor) : advance c = ((), c.next) := rfl

theorem run_ite {condition : Prop} [Decidable condition] (first second : Parser α) (c : Cursor) :
    (if condition then first else second) c = if condition then first c else second c := by
  split <;> rfl

/-- The token that is wanted stands there and is read, or nothing is read and its
absence reported. -/
theorem expectAs_cases (kind : TokenKind) (wanted : Wanted) (c : Cursor) :
    (∃ token rest, c.rest = token :: rest ∧ token.kind = kind ∧
      expectAs kind wanted c = (token, c.next)) ∨
    expectAs kind wanted c = (⟨kind, "", .point c.here⟩, c.report wanted) := by
  unfold expectAs
  split
  next token rest found =>
    by_cases isKind : token.kind = kind
    · exact .inl ⟨token, rest, found, isKind, if_pos isKind⟩
    · exact .inr (if_neg isKind)
  next => exact .inr rfl

section Tracks

variable {R : Cursor → Cursor → Prop} [Tracks R]

theorem Along.pure (value : α) : Along R (Pure.pure value) := fun c => Tracks.refl c

theorem Along.get : Along R get := fun c => Tracks.refl c

theorem Along.bind {parser : Parser α} {next : α → Parser β} (first : parser.Along R)
    (rest : ∀ value, (next value).Along R) : Along R (parser >>= next) :=
  fun c => Tracks.trans (first c) (rest _ _)

theorem Along.get_bind {next : Cursor → Parser β} (rest : ∀ c, (next c).Along R) :
    Along R (MonadState.get >>= next) := Along.get.bind rest

/-- What follows a reader that yields nothing. -/
theorem Along.seq {first : Parser Unit} {rest : Parser β} (moves : first.Along R)
    (further : rest.Along R) : Along R (first >>= fun _ => rest) := moves.bind fun _ => further

omit [Tracks R] in
/-- To make a value of what was read moves nothing. -/
theorem Along.bind_pure {parser : Parser α} {f : α → β} (moves : parser.Along R) :
    Along R (parser >>= fun value => Pure.pure (f value)) := fun c => moves c

omit [Tracks R] in
theorem Along.map {parser : Parser α} (moves : parser.Along R) (f : α → β) :
    Along R (f <$> parser) := fun c => moves c

omit [Tracks R] in
theorem Along.ite {condition : Prop} [Decidable condition] {first second : Parser α}
    (whenTrue : first.Along R) (whenFalse : second.Along R) :
    Along R (if condition then first else second) := by
  split
  · exact whenTrue
  · exact whenFalse

theorem Moves.pure (value : α) : Moves (Pure.pure value) := Along.pure value

theorem Moves.get : Moves get := Along.get

theorem Moves.bind {parser : Parser α} {next : α → Parser β} (first : parser.Moves)
    (rest : ∀ value, (next value).Moves) : Moves (parser >>= next) := Along.bind first rest

theorem Moves.ite {condition : Prop} [Decidable condition] {first second : Parser α}
    (whenTrue : first.Moves) (whenFalse : second.Moves) :
    Moves (if condition then first else second) := Along.ite whenTrue whenFalse

theorem advance_moves : advance.Along R := fun c => Tracks.next c

theorem Along.advance_bind {rest : Parser β} (further : rest.Along R) :
    Along R (advance >>= fun _ => rest) := advance_moves.seq further

theorem advance?_moves : advance?.Along R := fun c => Tracks.next c

theorem report_moves (wanted : Wanted) : (report wanted).Along R := fun c => Tracks.report c wanted

theorem advanceBy_moves (count : Nat) : (advanceBy count).Along R := by
  induction count with
  | zero => exact .pure ()
  | succ count ih => exact advance_moves.seq ih

theorem expectAs_moves (kind : TokenKind) (wanted : Wanted) : (expectAs kind wanted).Along R := by
  intro c
  rcases expectAs_cases kind wanted c with ⟨_, _, _, _, read⟩ | missing
  · rw [read]
    exact Tracks.next c
  · rw [missing]
    exact Tracks.report c wanted

theorem expect_moves (kind : TokenKind) : (expect kind).Along R := expectAs_moves kind _

theorem skipWord_moves (word : String) : (skipWord word).Along R := by
  intro c
  unfold skipWord
  split
  · exact Tracks.next c
  · exact Tracks.refl c

theorem iterateWithin_moves {step : α → Parser (Option α)} (moves : ∀ value, (step value).Along R)
    (limit : Nat) (value : α) : (iterateWithin step limit value).Along R := by
  induction limit generalizing value with
  | zero => exact .pure value
  | succ limit ih =>
    apply Along.bind
    · exact moves value
    intro next
    cases next with
    | none => exact .pure value
    | some next => exact ih next

theorem iterate_moves {step : α → Parser (Option α)} (moves : ∀ value, (step value).Along R)
    (value : α) : (iterate step value).Along R := by
  apply Along.get_bind
  intro c
  exact iterateWithin_moves moves _ value

private theorem collectWithin_moves {step : Parser (Option (List α))} (moves : step.Along R)
    (limit : Nat) : (collectWithin step limit).Along R := by
  induction limit with
  | zero => exact .pure []
  | succ limit ih =>
    apply Along.bind
    · exact moves
    intro values
    cases values with
    | none => exact .pure []
    | some values => exact ih.bind_pure

theorem collect_moves {step : Parser (Option (List α))} (moves : step.Along R) :
    (collect step).Along R := by
  apply Along.get_bind
  intro c
  exact collectWithin_moves moves _

omit [Tracks R] in
theorem discard_moves {parser : Parser α} (moves : parser.Along R) : Along R (discard parser) :=
  fun c => moves c

theorem skipGroupStep_moves (opening closing : TokenKind) (depth : Nat) :
    (skipGroupStep opening closing depth).Along R := by
  apply Along.ite
  · exact .pure none
  · apply Along.bind
    · exact advance?_moves
    intro token
    cases token with
    | none => exact .pure none
    | some token => exact .pure _

theorem skipGroup_moves (opening closing : TokenKind) : (skipGroup opening closing).Along R := by
  apply Along.get_bind
  intro c
  apply Along.ite
  · apply Along.advance_bind
    exact discard_moves (iterate_moves (skipGroupStep_moves opening closing) 1)
  · exact .pure ()

theorem groupTextStep_moves (opening closing : TokenKind) (group : GroupText) :
    (groupTextStep opening closing group).Along R := by
  apply Along.ite
  · exact .pure none
  · apply Along.bind
    · exact advance?_moves
    intro token
    cases token with
    | none => exact .pure none
    | some token => exact .pure _

theorem groupText_moves (opening closing : TokenKind) : (groupText opening closing).Along R := by
  apply Along.get_bind
  intro c
  exact (iterate_moves (groupTextStep_moves opening closing) _).bind_pure

theorem dottedStep_moves (name : NameText) : (dottedStep name).Along R := by
  apply Along.get_bind
  intro c
  apply Along.ite
  · apply Along.advance_bind
    exact (expect_moves .ident).bind_pure
  · exact .pure none

theorem bracketsStep_moves (type : NameText) : (bracketsStep type).Along R := by
  apply Along.get_bind
  intro c
  apply Along.ite
  · apply Along.advance_bind
    exact (expect_moves .closeBracket).bind_pure
  · exact .pure none

theorem qualifiedName_moves : qualifiedName.Along R := by
  apply Along.bind
  · exact expect_moves .ident
  intro first
  exact (iterate_moves dottedStep_moves _).bind_pure

/-- What is read of a type behind its name. -/
theorem typeRef?_eq_bind : ∃ rest : String × Span → Parser (Option TypeRef),
    typeRef? = (do
      let c ← get
      if c.atKind .ident then qualifiedName >>= rest else return none) ∧
    ∀ name, (rest name).Along R := by
  refine ⟨_, rfl, ?_⟩
  rintro ⟨name, span⟩
  have finish (generic : NameText) : Along R (do
      let type ← iterate bracketsStep generic
      return some (⟨type.text, ⟨span.start, type.stop⟩⟩ : TypeRef)) :=
    (iterate_moves bracketsStep_moves generic).bind_pure
  apply Along.get_bind
  intro after
  apply Along.ite
  · apply Along.bind
    · exact groupText_moves .less .greater
    rintro ⟨text, stop⟩
    exact (Along.pure _).bind finish
  · exact (Along.pure _).bind finish

theorem typeRef?_moves : typeRef?.Along R := by
  obtain ⟨rest, split, moves⟩ := typeRef?_eq_bind (R := R)
  rw [split]
  apply Along.get_bind
  intro c
  apply Along.ite
  · exact qualifiedName_moves.bind moves
  · exact .pure none

theorem typeAfter_moves (keyword : String) : (typeAfter keyword).Along R := by
  apply Along.bind
  · exact typeRef?_moves
  intro type
  cases type with
  | none =>
    apply Along.seq
    · exact report_moves _
    exact Along.get.bind_pure
  | some type => exact .pure type

/-- What is read of a type test behind its keyword. -/
theorem instanceOf_eq_bind (operand : Expr) : ∃ rest : Parser Expr,
    instanceOf operand = (advance >>= fun _ => rest) ∧ rest.Along R := by
  refine ⟨_, rfl, ?_⟩
  apply Along.seq
  · exact skipWord_moves "final"
  apply Along.bind
  · exact typeAfter_moves "instanceof"
  intro type
  apply Along.get_bind
  intro c
  apply Along.ite
  · apply Along.advance_bind
    exact Along.get.bind_pure
  · exact Along.get.bind_pure

theorem instanceOf_moves (operand : Expr) : (instanceOf operand).Along R := by
  obtain ⟨rest, split, moves⟩ := instanceOf_eq_bind (R := R) operand
  rw [split]
  exact .advance_bind moves

theorem castTypeStep_moves (type : Option TypeRef) : (castTypeStep type).Along R := by
  cases type with
  | none => exact .pure none
  | some type =>
    apply Along.get_bind
    intro c
    apply Along.ite
    · apply Along.advance_bind
      apply Along.bind
      · exact typeRef?_moves
      intro bound
      cases bound with
      | none => exact .pure _
      | some bound => exact .pure _
    · exact .pure none

theorem castType?_moves : castType?.Along R := by
  apply Along.bind
  · exact typeRef?_moves
  intro first
  apply Along.bind
  · exact iterate_moves castTypeStep_moves first
  intro type
  exact Along.get.bind_pure

section Forms

variable {nested : Form → Parser Expr} (moves : ∀ form, (nested form).Along R)
include moves

theorem argumentStep_moves : (argumentStep nested).Along R := by
  apply Along.get_bind
  intro c
  apply Along.ite
  · exact .pure none
  · apply Along.bind
    · exact moves .assignment
    intro argument
    apply Along.get_bind
    intro after
    apply Along.ite
    · exact advance_moves.bind_pure
    · exact .pure _

/-- What is read of arguments behind the opening parenthesis. -/
theorem argumentList_eq_bind : ∃ rest : Token → Parser (List Expr × Nat),
    argumentList nested = expect .openParen >>= rest ∧ ∀ opening, (rest opening).Along R := by
  refine ⟨_, rfl, fun opening => ?_⟩
  apply Along.bind
  · exact collect_moves (argumentStep_moves moves)
  intro arguments
  exact (expect_moves .closeParen).bind_pure

theorem argumentList_moves : (argumentList nested).Along R := by
  obtain ⟨rest, split, moves⟩ := argumentList_eq_bind moves
  rw [split]
  exact (expect_moves .openParen).bind moves

theorem lambda?_moves : (lambda? nested).Along R := by
  apply Along.get_bind
  intro c
  split
  next => exact .pure none
  next count _ =>
    apply Along.seq
    · exact advanceBy_moves (count + 1)
    apply Along.get_bind
    intro after
    apply Along.ite
    · apply Along.seq
      · exact skipGroup_moves .openBrace .closeBrace
      exact Along.get.bind_pure
    · apply Along.seq
      · exact discard_moves (moves .assignment)
      exact Along.get.bind_pure

omit moves in
theorem dimensionStep_moves (value : Unit) : (dimensionStep value).Along R := by
  apply Along.get_bind
  intro c
  apply Along.ite
  · exact (skipGroup_moves .openBracket .closeBracket).bind_pure
  · exact .pure none

theorem newExpr_moves : (newExpr nested).Along R := by
  apply Along.bind
  · exact expect_moves .ident
  intro keyword
  apply Along.bind
  · exact typeAfter_moves "new"
  intro type
  have finish (arguments : List Expr) : Along R (do
      iterate dimensionStep ()
      skipGroup .openBrace .closeBrace
      let after ← get
      return Expr.new type arguments
        ⟨keyword.span.start, max after.lastEnd keyword.span.stop⟩) := by
    apply Along.seq
    · exact iterate_moves dimensionStep_moves ()
    apply Along.seq
    · exact skipGroup_moves .openBrace .closeBrace
    exact Along.get.bind_pure
  apply Along.get_bind
  intro c
  apply Along.ite
  · apply Along.bind
    · exact argumentList_moves moves
    rintro ⟨arguments, stop⟩
    exact (Along.pure _).bind finish
  · exact (Along.pure _).bind finish

theorem primary_moves : (primary nested).Along R := by
  apply Along.get_bind
  intro c
  split
  · exact (report_moves .expression).bind_pure
  · split
    · apply Along.ite
      · exact newExpr_moves moves
      · exact advance_moves.bind_pure
    · exact advance_moves.bind_pure
    · exact advance_moves.bind_pure
    · exact advance_moves.bind_pure
    · apply Along.advance_bind
      apply Along.bind
      · exact moves .assignment
      intro inner
      exact (expect_moves .closeParen).bind_pure
    · apply Along.seq
      · exact report_moves .expression
      apply Along.ite
      · exact .pure _
      · exact advance_moves.bind_pure

theorem postfixedStep_moves (expr : Expr) : (postfixedStep nested expr).Along R := by
  apply Along.get_bind
  intro c
  split
  · exact .pure none
  · split
    · apply Along.ite
      · apply Along.advance_bind
        exact (expect_moves .ident).bind_pure
      · exact .pure none
    · apply Along.bind
      · exact argumentList_moves moves
      rintro ⟨arguments, stop⟩
      exact .pure _
    · apply Along.advance_bind
      apply Along.bind
      · exact moves .assignment
      intro position
      exact (expect_moves .closeBracket).bind_pure
    · apply Along.advance_bind
      apply Along.bind
      · exact expect_moves .ident
      intro name
      exact Along.get.bind_pure
    · split
      · exact .pure none
      · exact advance_moves.bind_pure

theorem postfixed_moves : (postfixed nested).Along R := by
  apply Along.bind
  · exact primary_moves moves
  intro first
  exact iterate_moves (postfixedStep_moves moves) first

theorem cast?_moves : (cast? nested).Along R := by
  intro c
  have typed : R c (castType? c.next).2 := Tracks.trans (Tracks.next c) (castType?_moves c.next)
  simp only [cast?, run_bind, run_get, run_advance]
  cases (castType? c.next).1 with
  | none => exact Tracks.refl c
  | some type =>
    -- The type was read ahead; the cast goes on from where its reading stopped.
    apply Tracks.trans typed
    have finish (operand : Expr) : Along R (Pure.pure (some
        (Expr.cast type operand ⟨c.place.start, max operand.span.stop c.place.stop⟩))) := .pure _
    apply Along.advance_bind
    apply Along.bind
    · exact lambda?_moves moves
    intro lambda
    cases lambda with
    | some lambda => exact (Along.pure lambda).bind finish
    | none => exact (moves .unary).bind finish

theorem signed_moves : (signed nested).Along R := by
  apply Along.get_bind
  intro c
  split
  · exact postfixed_moves moves
  · apply Along.advance_bind
    exact (moves .unary).bind_pure

theorem unary_moves : (unary nested).Along R := by
  apply Along.get_bind
  intro c
  apply Along.ite
  · apply Along.bind
    · exact cast?_moves moves
    intro cast
    cases cast with
    | none => exact signed_moves moves
    | some cast => exact .pure cast
  · exact signed_moves moves

theorem binaryStep_moves (minimum : Nat) (left : Expr) :
    (binaryStep nested minimum left).Along R := by
  apply Along.get_bind
  intro c
  apply Along.ite
  · apply Along.ite
    · exact .pure none
    · exact (instanceOf_moves left).bind_pure
  · split
    · exact .pure none
    · apply Along.ite
      · exact .pure none
      · apply Along.advance_bind
        exact (moves (.binary _)).bind_pure

theorem binary_moves (minimum : Nat) : (binary nested minimum).Along R := by
  apply Along.bind
  · exact unary_moves moves
  intro first
  exact iterate_moves (binaryStep_moves moves minimum) first

private theorem conditional_moves : (conditional nested).Along R := by
  apply Along.bind
  · exact binary_moves moves 0
  intro condition
  apply Along.get_bind
  intro c
  apply Along.ite
  · apply Along.advance_bind
    apply Along.bind
    · exact moves .assignment
    intro whenTrue
    apply Along.seq
    · exact discard_moves (expect_moves .colon)
    exact (moves .conditional).bind_pure
  · exact .pure condition

private theorem assignment_moves : (assignment nested).Along R := by
  apply Along.bind
  · exact lambda?_moves moves
  intro lambda
  cases lambda with
  | some lambda => exact .pure lambda
  | none =>
    apply Along.bind
    · exact conditional_moves moves
    intro target
    apply Along.get_bind
    intro c
    apply Along.ite
    · apply Along.advance_bind
      exact (moves .assignment).bind_pure
    · exact .pure target

private theorem ofForm_moves (form : Form) : (ofForm nested form).Along R := by
  cases form with
  | assignment => exact assignment_moves moves
  | conditional => exact conditional_moves moves
  | binary minimum => exact binary_moves moves minimum
  | unary => exact unary_moves moves

end Forms

theorem exprWithin_moves (depth : Nat) (form : Form) : (exprWithin depth form).Along R := by
  induction depth generalizing form with
  | zero => exact fun c => Tracks.refl c
  | succ depth ih => exact ofForm_moves ih form

end Tracks

end Parser
end MethodContracts.Source
