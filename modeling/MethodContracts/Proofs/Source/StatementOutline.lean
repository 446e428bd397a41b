import MethodContracts.Proofs.Source.ExpressionOutline
import MethodContracts.Proofs.Source.StatementProgress

/-!
# Outlines of annotations and statements

Every annotation and every statement that is read spans what was read. What is skipped on the
way is passed, and where a statement turns out to be no declaration reading starts over with
nothing lost and nothing kept.
-/
namespace MethodContracts.Source
namespace Parser

open Cursor Outline

variable {boundary : Nat → Prop} {c : Cursor}

/-! ## Annotations and modifiers -/

/-- A token belongs to the value that starts with it, unless it separates or closes. -/
private theorem valueStep_reads {token : Token} {rest : List Token} (sound : c.Sound boundary)
    (found : c.rest = token :: rest) (notComma : token.kind ≠ .comma)
    (notClosing : token.kind ≠ .closeParen) :
    Leads boundary (valueStep ⟨[], 0⟩) c
      fun next c' => ∃ value ∈ next, c.here ≤ c'.lastEnd := by
  refine .get ?_
  split
  next atEnd => exact absurd (found.symm.trans atEnd) (List.cons_ne_nil _ _)
  next head others isHead =>
    obtain ⟨rfl, rfl⟩ := List.cons.inj (found.symm.trans isHead)
    refine .ite (fun ends => ?_) fun _ => ?_
    · exact absurd ends.2 (not_or.mpr ⟨notComma, notClosing⟩)
    · exact (advance_leads sound found).bind fun _ c₁ step₁ read =>
        .pure step₁.sound ⟨_, rfl, read.passed⟩

/-- A value before a comma may be empty; any other reads a token. -/
private theorem annotationValue_leads (sound : c.Sound boundary) (notAtEnd : ¬c.atEnd = true)
    (notAtClosing : ¬c.atKind .closeParen = true) : Leads boundary annotationValue c
      fun _ c' => c.here ≤ c'.lastEnd ∨ c' = c ∧ c.atKind .comma = true := by
  obtain ⟨token, rest, found⟩ := exists_of_not_atEnd notAtEnd
  refine .get (.ite (fun atString => ?_) fun _ => ?_)
  · rw [Bool.and_eq_true] at atString
    refine (expect_reads sound atString.1).bind fun _ c₁ step₁ read => .pure step₁.sound ?_
    exact .inl read.passed
  · have value : Leads boundary (iterate valueStep ⟨[], 0⟩) c
        fun _ c' => c.here ≤ c'.lastEnd ∨ c' = c ∧ c.atKind .comma = true := by
      -- The value between two commas is empty: nothing is read until the comma is skipped.
      by_cases isComma : token.kind = .comma
      · have declines : valueStep ⟨[], 0⟩ c = (none, c) := by
          simp [valueStep, run_bind, run_get, run_pure, found, isComma]
        have same := iterate_of_none declines
        constructor <;> rw [same]
        · exact .refl sound
        · exact .inr ⟨rfl, c.atKind_of_rest found isComma⟩
      · have notClosing := fun isClosing => notAtClosing (c.atKind_of_rest found isClosing)
        have passed : Leads boundary (iterate valueStep ⟨[], 0⟩) c
            fun _ c' => c.here ≤ c'.lastEnd := by
          refine .iterate_first (found ▸ List.cons_ne_nil _ _)
            (valueStep_reads sound found isComma notClosing) fun value c₁ step₁ passed => ?_
          exact ((valueStep_moves value).passes c₁ step₁.sound).mono fun _ _ step _ =>
            Nat.le_trans passed step.lastEnd_le
        exact passed.mono fun _ _ _ => .inl
    exact value.bind fun _ c₁ step₁ read => .pure step₁.sound read

/-- The name of an argument is read with the sign behind it, or nothing is. -/
private theorem argumentName_leads (sound : c.Sound boundary) :
    Leads boundary argumentName c fun name c' =>
      (name = none ∧ c' = c ∨ c.here ≤ c'.lastEnd) ∧
        (c'.errors = [] → ∀ word ∈ name.toList, word ≠ "") := by
  refine .get (.ite (fun atName => ?_) fun _ => ?_)
  · rw [Bool.and_eq_true] at atName
    refine (expect_reads sound atName.1).bind fun name c₁ step₁ read => ?_
    refine (advance_moves.passes c₁ step₁.sound).bind fun _ c₂ step₂ _ => ?_
    refine .pure step₂.sound ⟨.inr ?_, ?_⟩
    · exact Nat.le_trans read.passed step₂.lastEnd_le
    · exact fun clean => read.spans.filled (step₂.clean clean)
  · exact .pure sound ⟨.inl ⟨rfl, rfl⟩, wordless⟩

private theorem annotationArgument_leads (sound : c.Sound boundary) (notAtEnd : ¬c.atEnd = true)
    (notAtClosing : ¬c.atKind .closeParen = true) : Leads boundary annotationArgument c
      fun argument c' => argument.span = c'.since c.here ∧
        (c'.errors = [] → ∀ word ∈ argument.name.toList, word ≠ "") ∧
        (c.here ≤ c'.lastEnd ∨ c' = c ∧ c.atKind .comma = true) := by
  refine .get ((argumentName_leads sound).bind fun name c₁ step₁ ⟨read, filled⟩ => ?_)
  have value : Leads boundary annotationValue c₁
      fun _ c' => c.here ≤ c'.lastEnd ∨ c' = c ∧ c.atKind .comma = true := by
    rcases read with ⟨-, rfl⟩ | passed
    · exact annotationValue_leads sound notAtEnd notAtClosing
    · exact (annotationValue_moves.passes c₁ step₁.sound).mono fun _ _ step _ =>
        .inl (Nat.le_trans passed step.lastEnd_le)
  refine value.bind fun value c₂ step₂ read => .get (.pure step₂.sound ⟨rfl, ?_, read⟩)
  exact fun clean => filled (step₂.clean clean)

private theorem annotationArgumentStep_leads (sound : c.Sound boundary) :
    Leads boundary annotationArgumentStep c fun arguments c' =>
      c.Fits boundary ((arguments.getD []).map AnnotationArgument.outline) c' := by
  refine .get (.ite (fun _ => .pure sound (.nil (.refl sound))) fun more => ?_)
  simp only [Bool.or_eq_true, not_or] at more
  refine (annotationArgument_leads sound more.1 more.2).bind fun argument c₁ step₁ read => ?_
  obtain ⟨place, filled, read⟩ := read
  have reached : Leads boundary (skip .comma) c₁ fun _ c' => c.here ≤ c'.lastEnd := by
    have skipped := (skip_moves .comma).passes c₁ step₁.sound
    rcases read with passed | ⟨rfl, atComma⟩
    · exact skipped.mono fun _ _ step _ => Nat.le_trans passed step.lastEnd_le
    · obtain ⟨token, rest, found, -⟩ := exists_of_atKind atComma
      refine ⟨skipped.step, ?_⟩
      rw [skip, if_pos atComma]
      exact sound.here_le_lastEnd_next found
  refine reached.bind fun _ c₂ step₂ passed => .pure step₂.sound ?_
  have fits := Fits.sinceBefore step₁ step₂ passed filled
  rwa [← place] at fits

private theorem annotation_leads (sound : c.Sound boundary) :
    Leads boundary annotation c fun note c' => c.Spans boundary note.outline c' := by
  refine (expect_leads sound).bind fun sign c₁ step₁ isSign => ?_
  have start : sign.span.start = c.here := isSign.start
  refine (qualifiedName_leads step₁.sound).bind fun (name, nameSpan) c₂ step₂ isName => .get ?_
  refine .ite (fun _ => ?_) fun _ => .pure step₂.sound ?_
  · refine (advance_moves.passes c₂ step₂.sound).bind fun _ c₃ step₃ _ => ?_
    have arguments : Leads boundary (collect annotationArgumentStep) c₃ fun arguments c' =>
        c₃.Fits boundary (arguments.map AnnotationArgument.outline) c' :=
      collect_leads step₃.sound fun c' step => annotationArgumentStep_leads step.sound
    refine arguments.bind fun arguments c₄ step₄ fits => ?_
    refine (expect_leads step₄.sound).bind fun closing c₅ step₅ isClosing => .pure step₅.sound ?_
    have later : nameSpan.stop ≤ closing.span.stop := isName.stop_le (step₃.trans step₄) isClosing
    have before := step₁.trans (step₂.trans step₃)
    unfold Annotation.outline
    rw [start, Nat.max_eq_left later]
    refine ((fits.earlier before).later step₅).upTo (before.trans step₄) isClosing fun clean => ?_
    exact isName.filled ((step₃.trans (step₄.trans step₅)).clean clean)
  · unfold Annotation.outline
    rw [start]
    exact (Fits.nil (step₁.trans step₂)).upTo step₁ isName isName.filled

private theorem modifierStep_leads (sound : c.Sound boundary) :
    Leads boundary modifierStep c fun notes c' =>
      c.Fits boundary ((notes.getD []).map Annotation.outline) c' := by
  have stay : Leads boundary (pure none) c fun notes c' =>
      c.Fits boundary ((notes.getD []).map Annotation.outline) c' :=
    .pure sound (.nil (.refl sound))
  have pass {parser : Parser Unit} (passes : Passes boundary parser) :
      Leads boundary (do parser; return some ([] : List Annotation)) c fun notes c' =>
        c.Fits boundary ((notes.getD []).map Annotation.outline) c' :=
    (passes c sound).bind fun _ _ step _ => .pure step.sound (.nil step)
  refine .get (.ite (fun _ => ?_) fun _ => ?_)
  · refine .ite (fun _ => stay) fun _ => ?_
    exact (annotation_leads sound).bind fun note c₁ step₁ spans => .pure step₁.sound spans.fits
  · refine .ite (fun _ => .ite (fun _ => pass (advanceBy_moves 3).passes) fun _ => ?_) fun _ => stay
    exact .ite (fun _ => stay) fun _ => pass advance_moves.passes

theorem modifiersAndAnnotations_leads (sound : c.Sound boundary) :
    Leads boundary modifiersAndAnnotations c fun notes c' =>
      c.Fits boundary (notes.map Annotation.outline) c' :=
  collect_leads sound fun _ step => modifierStep_leads step.sound

/-! ## Statements -/

/-- As `Reaches`, where fewer than `bound` tokens are left. -/
def ReachesWithin (boundary : Nat → Prop) (bound : Nat) (c c' : Cursor) : Prop :=
  c.left < bound → c.Reaches boundary c'

instance {bound : Nat} : Tracks (ReachesWithin boundary bound) where
  refl c _ := Tracks.refl c
  trans first second room sound :=
    have step := first room sound
    step.trans (second (step.room_lt room) step.sound)
  next c _ := Tracks.next c
  report c wanted _ := Tracks.report c wanted

/-- What the reader reads from fewer than `bound` tokens spans what was read. -/
def StmtsWithin (boundary : Nat → Prop) (nested : Parser (Option Stmt)) (bound : Nat) : Prop :=
  ∀ c : Cursor, c.Sound boundary → c.left < bound → Leads boundary nested c
    fun statement c' => ∀ s ∈ statement, c.Spans boundary s.outline c'

private theorem parenthesized_leads (sound : c.Sound boundary) :
    Leads boundary parenthesized c
      fun condition c' => c.Fits boundary [condition.outline] c' := by
  refine ((discard_moves (expect_moves .openParen)).passes c sound).bind fun _ c₁ step₁ _ => ?_
  refine (expr_leads step₁.sound).bind fun condition c₂ step₂ spans => ?_
  exact ((discard_moves (expect_moves .closeParen)).passes c₂ step₂.sound).bind fun _ c₃ step₃ _ =>
    .pure step₃.sound ((spans.fits.earlier step₁).later step₃)

private theorem someExpr_leads (sound : c.Sound boundary) :
    Leads boundary (some <$> expr) c
      fun value c' => c.Fits boundary (Expr.outlineOption value) c' :=
  (expr_leads sound).map fun _ _ _ spans => spans.fits

private theorem returnStmt_leads (sound : c.Sound boundary) :
    Leads boundary returnStmt c
      fun statement c' => c.Spans boundary statement.outline c' := by
  refine .get ((advance_moves.passes c sound).bind fun _ c₁ step₁ _ => .get ?_)
  have finish (value : Option Expr) (c₂ : Cursor)
      (fits : c₁.Fits boundary (Expr.outlineOption value) c₂) : Leads boundary (do
        let closing ← expect .semicolon
        return Stmt.returns value ⟨c.here, closing.span.stop⟩) c₂
        fun statement c' => c.Spans boundary statement.outline c' :=
    (expect_leads fits.step.sound).bind fun closing c₃ step₃ isClosing =>
      .pure step₃.sound ((fits.earlier step₁).closed isClosing)
  refine .ite (fun _ => .pure_bind (finish _ c₁ (.nil (.refl step₁.sound)))) fun _ => ?_
  exact (someExpr_leads step₁.sound).bind fun value c₂ _ fits => finish value c₂ fits

private theorem throwStmt_leads (sound : c.Sound boundary) :
    Leads boundary throwStmt c
      fun statement c' => c.Spans boundary statement.outline c' := by
  refine .get ((advance_moves.passes c sound).bind fun _ c₁ step₁ _ => ?_)
  refine (expr_leads step₁.sound).bind fun value c₂ step₂ spans => ?_
  exact (expect_leads step₂.sound).bind fun closing c₃ step₃ isClosing =>
    .pure step₃.sound ((spans.fits.earlier step₁).closed isClosing)

private theorem exprStmt_leads (sound : c.Sound boundary) :
    Leads boundary exprStmt c
      fun statement c' => c.Spans boundary statement.outline c' := by
  refine .get ((expr_leads sound).bind fun value c₁ step₁ spans => ?_)
  refine (expect_leads step₁.sound).bind fun closing c₂ step₂ isClosing => .pure step₂.sound ?_
  have later : value.outline.span.stop ≤ closing.span.stop :=
    spans.stop_le (.refl step₁.sound) isClosing
  rw [Stmt.outline, ← value.span_outline, Nat.max_eq_left later]
  exact spans.fits.closed isClosing

private theorem assertStmt_leads (sound : c.Sound boundary) :
    Leads boundary assertStmt c
      fun statement c' => c.Spans boundary statement.outline c' := by
  refine .get ((advance_moves.passes c sound).bind fun _ c₁ step₁ _ => ?_)
  refine (expr_leads step₁.sound).bind fun condition c₂ step₂ isCondition => .get ?_
  -- The semicolon follows on the condition or on the message.
  have finish (message : Option Expr) (c₃ : Cursor)
      (fits : c₂.Fits boundary (Expr.outlineOption message) c₃) : Leads boundary (do
        let closing ← expect .semicolon
        return Stmt.assert condition message ⟨c.here, closing.span.stop⟩) c₃
        fun statement c' => c.Spans boundary statement.outline c' :=
    (expect_leads fits.step.sound).bind fun closing c₄ step₄ isClosing =>
      .pure step₄.sound (((isCondition.fits.append fits).earlier step₁).closed isClosing)
  refine .ite (fun _ => ?_) fun _ => .pure_bind (finish _ c₂ (.nil (.refl step₂.sound)))
  refine (advance_moves.passes c₂ step₂.sound).bind fun _ c₃ step₃ _ => ?_
  exact (someExpr_leads step₃.sound).bind fun message c₄ _ fits =>
    finish message c₄ (fits.earlier step₃)

/-- The type and the name of a variable are read in order. -/
private theorem localHead?_leads (sound : c.Sound boundary) :
    Leads boundary localHead? c
      fun head c' => ∀ h ∈ head, c.Fits boundary [h.1.outline, h.2.outline] c' := by
  have absent {c' : Cursor} : ∀ h ∈ (none : Option (TypeRef × Token)),
      c.Fits boundary [h.1.outline, h.2.outline] c' := fun _ isNone => by cases isNone
  refine (variableModifiers_moves.passes c sound).bind fun _ c₁ step₁ _ => ?_
  refine (typeRef?_leads step₁.sound).bind fun type c₂ step₂ read => ?_
  cases read with
  | none => exact .pure step₂.sound absent
  | some type isType =>
    refine .get (.ite (fun _ => ?_) fun _ => .pure step₂.sound absent)
    refine (expect_leads step₂.sound).bind fun name c₃ step₃ isName => .get ?_
    refine .ite (fun _ => .pure step₃.sound ?_) fun _ => .pure step₃.sound absent
    intro head isHead
    cases isHead
    exact (isType.fits.append isName.fits).earlier step₁

/-- The declaration of a variable is read, or nothing is. -/
private theorem localStmt?_leads (sound : c.Sound boundary) :
    Leads boundary localStmt? c (c.Finds boundary Stmt.outline) := by
  -- Going back is no step from where the reader stands, only from where it began.
  refine .get (.of_ensures ((localHead?_leads sound).after fun head c₁ step₁ isHead => ?_))
  cases head with
  | none => exact ⟨.refl sound, .none⟩
  | some head =>
    obtain ⟨type, name⟩ := head
    have head := isHead _ rfl
    -- The semicolon follows on the name or on the initial value.
    have finish (init : Option Expr) (c₂ : Cursor)
        (fits : c₁.Fits boundary (Expr.outlineOption init) c₂) : Leads boundary (do
          let closing ← expect .semicolon
          return some (Stmt.local type name.text name.span init ⟨c.here, closing.span.stop⟩)) c₂
          (c.Finds boundary Stmt.outline) :=
      (expect_leads fits.step.sound).bind fun closing c₃ step₃ isClosing =>
        .pure step₃.sound (.some _ ((head.append fits).closed isClosing))
    refine Leads.ensures step₁ (.get ?_)
    refine .ite (fun _ => ?_) fun _ => .pure_bind (finish _ c₁ (.nil (.refl step₁.sound)))
    refine (advance_moves.passes c₁ step₁.sound).bind fun _ c₂ step₂ _ => ?_
    exact (someExpr_leads step₂.sound).bind fun init c₃ _ fits =>
      finish init c₃ (fits.earlier step₂)

section Nesting

variable {nested : Parser (Option Stmt)} {bound : Nat} (reads : StmtsWithin boundary nested bound)
include reads

private theorem blockStep_leads (sound : c.Sound boundary) (room : c.left < bound) :
    Leads boundary (blockStep nested) c fun statements c' =>
      c.Fits boundary ((statements.getD []).map Stmt.outline) c' := by
  refine .get (.ite (fun _ => .pure sound (.nil (.refl sound))) fun _ => ?_)
  refine (reads c sound room).bind fun statement c₁ step₁ spans => .get ?_
  have fits : c.Fits boundary (statement.toList.map Stmt.outline) c₁ := by
    cases statement with
    | none => exact .nil step₁
    | some statement => exact (spans statement rfl).fits
  refine .ite (fun _ => ?_) fun _ => .pure step₁.sound fits
  exact (advance_moves.passes c₁ step₁.sound).bind fun _ c₂ step₂ _ =>
    .pure step₂.sound (fits.later step₂)

/-- The statements of a block start behind its brace, so fewer tokens are left there. -/
private theorem blockOf_leads (sound : c.Sound boundary)
    (room : (expect .openBrace c).2.left < bound) :
    Leads boundary (blockOf nested) c fun block c' => c.Spans boundary block.outline c' := by
  have opened : Leads boundary (expect .openBrace) c
      fun brace c' => c.Spans boundary brace.outline c' ∧ c'.left < bound :=
    have opening := expect_leads sound
    ⟨opening.step, opening.post, room⟩
  refine opened.bind fun opening c₁ step₁ ⟨isOpening, fewer⟩ => ?_
  have statements : Leads boundary (collect (blockStep nested)) c₁ fun statements c' =>
      c₁.Fits boundary (statements.map Stmt.outline) c' :=
    collect_leads step₁.sound fun c' step =>
      blockStep_leads reads step.sound (step.room_lt fewer)
  refine statements.bind fun statements c₂ step₂ fits => ?_
  refine (expect_leads step₂.sound).bind fun closing c₃ step₃ isClosing => .pure step₃.sound ?_
  have start : opening.span.start = c.here := isOpening.start
  -- No token ends before one that was read earlier.
  have later : c.here ≤ closing.span.stop :=
    Nat.le_trans (step₁.trans step₂).here_le isClosing.bounds.1
  rw [Block.outline, Block.toStmt, Stmt.outline, Stmt.outlineAll_eq, start, Nat.max_eq_left later]
  exact (fits.earlier step₁).closed isClosing

private theorem governed_leads (sound : c.Sound boundary) (room : c.left < bound) :
    Leads boundary (governed nested) c
      fun statement c' => c.Spans boundary statement.outline c' := by
  refine .get ((reads c sound room).bind fun statement c₁ step₁ spans => ?_)
  cases statement with
  | some statement => exact .pure step₁.sound (spans statement rfl)
  | none =>
    refine (report_leads _ step₁.sound).bind fun _ c₂ step₂ reported => .pure step₂.sound ?_
    subst reported
    exact .placeholder (step₁.trans step₂) (c₁.errors_report _) []

private theorem ifStmt_leads (sound : c.Sound boundary) (nonempty : c.rest ≠ [])
    (room : c.left ≤ bound) : Leads boundary (ifStmt nested) c
      fun statement c' => c.Spans boundary statement.outline c' := by
  obtain ⟨keyword, rest, found⟩ := List.exists_cons_of_ne_nil nonempty
  refine .get ((advance_leads sound found).bind fun _ c₁ step₁ read => ?_)
  refine (parenthesized_leads step₁.sound).bind fun condition c₂ step₂ isCondition => ?_
  have fewer : c₂.left < bound := step₂.room_lt (read.room room)
  refine (governed_leads reads step₂.sound fewer).bind fun whenTrue c₃ step₃ isTrue => .get ?_
  have passed := Nat.le_trans read.passed (step₂.trans step₃).lastEnd_le
  have parts := (isCondition.append isTrue.fits).earlier step₁
  refine .ite (fun _ => ?_) fun _ => .get (.pure step₃.sound ?_)
  · refine (advance_moves.passes c₃ step₃.sound).bind fun _ c₄ step₄ _ => ?_
    have fewer : c₄.left < bound := (step₃.trans step₄).room_lt fewer
    refine (governed_leads reads step₄.sound fewer).bind fun whenFalse c₅ step₅ isFalse => .get ?_
    refine .pure step₅.sound ?_
    have reached := Nat.le_trans passed (step₄.trans step₅).lastEnd_le
    exact (parts.append (isFalse.fits.earlier step₄)).since reached wordless
  · exact parts.since passed wordless

private theorem whileStmt_leads (sound : c.Sound boundary) (nonempty : c.rest ≠ [])
    (room : c.left ≤ bound) : Leads boundary (whileStmt nested) c
      fun statement c' => c.Spans boundary statement.outline c' := by
  obtain ⟨keyword, rest, found⟩ := List.exists_cons_of_ne_nil nonempty
  refine .get ((advance_leads sound found).bind fun _ c₁ step₁ read => ?_)
  refine (parenthesized_leads step₁.sound).bind fun condition c₂ step₂ isCondition => ?_
  have fewer : c₂.left < bound := step₂.room_lt (read.room room)
  refine (governed_leads reads step₂.sound fewer).bind fun body c₃ step₃ isBody => .get ?_
  have passed := Nat.le_trans read.passed (step₂.trans step₃).lastEnd_le
  have parts := (isCondition.append isBody.fits).earlier step₁
  exact .pure step₃.sound (parts.since passed wordless)

/-- Skipping moves on as the reader of nested statements does. -/
private theorem skipOutlined_leads (keyword : String) (sound : c.Sound boundary)
    (room : c.left < bound) : Leads boundary (skipOutlined nested keyword) c fun _ _ => True := by
  have nests : nested.Along (ReachesWithin boundary bound) :=
    fun c room sound => (reads c sound room).step
  exact ⟨skipOutlined_moves nests keyword c room sound, trivial⟩

private theorem outlinedStmt_leads {keyword : String} (sound : c.Sound boundary)
    (nonempty : c.rest ≠ []) (room : c.left ≤ bound) (isKeyword : keyword ≠ "") :
    Leads boundary (outlinedStmt nested keyword) c
      fun statement c' => c.Spans boundary statement.outline c' := by
  obtain ⟨token, rest, found⟩ := List.exists_cons_of_ne_nil nonempty
  refine .get ((advance_leads sound found).bind fun _ c₁ step₁ read => ?_)
  have fewer : c₁.left < bound := read.room room
  refine (skipOutlined_leads reads keyword step₁.sound fewer).bind fun _ c₂ step₂ _ => .get ?_
  have passed := Nat.le_trans read.passed step₂.lastEnd_le
  exact .pure step₂.sound ((Fits.nil (step₁.trans step₂)).since passed
    fun _ => List.forall_mem_singleton.mpr isKeyword)

private theorem stmtOf_leads (sound : c.Sound boundary) (room : c.left ≤ bound) :
    Leads boundary (stmtOf nested) c
      fun statement c' => ∀ s ∈ statement, c.Spans boundary s.outline c' := by
  -- Whichever statement it is, it spans what was read.
  have one {statement : Stmt} {c' : Cursor} (spans : c.Spans boundary statement.outline c') :
      ∀ s ∈ some statement, c.Spans boundary s.outline c' := by simpa using spans
  have keep {parser : Parser Stmt}
      (leads : Leads boundary parser c fun statement c' => c.Spans boundary statement.outline c') :
      Leads boundary (some <$> parser) c
        fun statement c' => ∀ s ∈ statement, c.Spans boundary s.outline c' :=
    leads.map fun _ _ _ => one
  refine .get (.ite (fun _ => .pure sound fun _ isNone => by cases isNone) fun notAtEnd => ?_)
  obtain ⟨token, rest, found⟩ := exists_of_not_atEnd notAtEnd
  have nonempty : c.rest ≠ [] := found ▸ List.cons_ne_nil _ _
  refine .ite (fun _ => ?_) fun _ => .ite (fun atBrace => ?_) fun _ => ?_
  · refine (advance_leads sound found).bind fun _ c₁ step₁ read => .pure step₁.sound ?_
    have place : c.place = token.span := by simp only [Cursor.place, found]
    rw [place]
    exact one read.plain
  · have fewer := Nat.lt_of_lt_of_le (expect_reads sound atBrace).post.left_lt room
    exact (blockOf_leads reads sound fewer).bind fun block c₁ step₁ spans =>
      .pure step₁.sound (one spans)
  refine .ite (fun _ => keep (returnStmt_leads sound)) fun _ => ?_
  refine .ite (fun _ => keep (throwStmt_leads sound)) fun _ => ?_
  refine .ite (fun _ => keep (ifStmt_leads reads sound nonempty room)) fun _ => ?_
  refine .ite (fun _ => keep (assertStmt_leads sound)) fun _ => ?_
  refine .ite (fun _ => keep (whileStmt_leads reads sound nonempty room)) fun _ => ?_
  refine .ite (fun isOutlined => keep ?_) fun _ => ?_
  · refine outlinedStmt_leads reads sound nonempty room fun empty => ?_
    rw [empty] at isOutlined
    exact absurd isOutlined (by decide)
  · refine (localStmt?_leads sound).bind fun statement c₁ step₁ read => ?_
    cases read with
    | some statement spans => exact .pure step₁.sound (one spans)
    | none => exact keep (exprStmt_leads sound)

end Nesting

/-- A reader of a depth reads from fewer tokens; where the depth is zero there are none. -/
private theorem stmtWithin_spans (depth : Nat) : StmtsWithin boundary (stmtWithin depth) depth := by
  induction depth with
  | zero => exact fun c _ room => absurd room (Nat.not_lt_zero _)
  | succ depth ih => exact fun c sound room => stmtOf_leads ih sound (Nat.le_of_lt_succ room)

private theorem stmt?_spans (bound : Nat) : StmtsWithin boundary stmt? bound :=
  fun c sound _ => .get (stmtWithin_spans _ c sound (Nat.lt_succ_self _))

theorem block_leads (sound : c.Sound boundary) :
    Leads boundary block c fun block c' => c.Spans boundary block.outline c' := by
  have fewer := (expect_moves .openBrace c).left_le
  exact blockOf_leads (stmt?_spans (c.left + 1)) sound (Nat.lt_succ_of_le fewer)

end Parser
end MethodContracts.Source
