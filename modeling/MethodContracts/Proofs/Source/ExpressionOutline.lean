import MethodContracts.Proofs.Source.Fitting

/-!
# Outlines of types and expressions

Every type and every expression that is read spans what was read, whatever is wrong with it.
-/
namespace MethodContracts.Source
namespace Parser

open Cursor Outline

variable {boundary : Nat → Prop} {c : Cursor} {kind : TokenKind}

/-! ## Groups and types -/

/-- A token of a group is read, and the group then ends with it. -/
private theorem groupTextStep_leads {c₀ : Cursor} (before : c₀.Step boundary c)
    (opening closing : TokenKind) (group : GroupText) :
    Leads boundary (groupTextStep opening closing group) c fun next c' =>
      match next with
      | some next => c₀.Spans boundary (.node [] ⟨c₀.here, next.stop⟩ []) c'
      | none => c' = c ∧ (group.complete = true ∨ c.rest = []) := by
  refine .ite (fun complete => .pure before.sound ⟨rfl, .inl complete⟩) fun _ => ?_
  refine (advance?_leads before.sound).bind fun token c' step read => ?_
  cases token with
  | none => exact .pure step.sound ⟨read.1, .inr read.2⟩
  | some token =>
    have parts := Fits.nil (before.trans step)
    exact .pure step.sound (parts.upTo before read.spans wordless)

/-- A group is read up to the end that is yielded with its text. -/
private theorem groupText_leads {opening closing : TokenKind} (sound : c.Sound boundary)
    (nonempty : c.rest ≠ []) : Leads boundary (groupText opening closing) c fun group c' =>
      c.Spans boundary (.node [] ⟨c.here, group.2⟩ []) c' := by
  -- The opening bracket is read in any case, so the group spans something.
  have first : Leads boundary (groupTextStep opening closing ⟨0, "", c.here, false⟩) c
      fun group c' => ∃ value ∈ group, c.Spans boundary (.node [] ⟨c.here, value.stop⟩ []) c' := by
    refine (groupTextStep_leads (.refl sound) _ _ _).mono fun group c' _ read => ?_
    cases group with
    | none => exact absurd (read.2.resolve_left Bool.false_ne_true) nonempty
    | some group => exact ⟨group, rfl, read⟩
  have further : Leads boundary (iterate (groupTextStep opening closing) ⟨0, "", c.here, false⟩) c
      fun group c' => c.Spans boundary (.node [] ⟨c.here, group.stop⟩ []) c' := by
    refine .iterate_first nonempty first fun group c₁ step₁ spans => ?_
    refine (groupTextStep_leads step₁ _ _ _).mono fun next c₂ _ read => ?_
    cases next with
    | none => exact read.1 ▸ spans
    | some next => exact read
  exact .get (further.bind fun group c' step spans => .pure step.sound spans)

/-- A name that grows: it spans what was read of it so far. -/
def NameText.Grown (boundary : Nat → Prop) (name : NameText) (c c' : Cursor) : Prop :=
  c.Spans boundary (.leaf name.text ⟨c.here, name.stop⟩) c'

theorem NameText.Grown.text_ne_empty {name : NameText} {c' : Cursor}
    (grown : name.Grown boundary c c') (clean : c'.errors = []) : name.text ≠ "" :=
  grown.filled clean _ (List.mem_singleton_self _)

/-- What was read is followed by something else that belongs to the name. -/
theorem NameText.Grown.extend {name : NameText} {c₁ c₂ c' : Cursor} {outline : Outline}
    (grown : name.Grown boundary c c₁) (between : c₁.Step boundary c₂)
    (last : c₂.Spans boundary outline c') (text : String) :
    NameText.Grown boundary ⟨name.text ++ text, outline.span.stop⟩ c c' := by
  have before := grown.step.trans between
  refine (Fits.nil (before.trans last.step)).upTo before last fun clean => ?_
  refine List.forall_mem_singleton.mpr fun empty => ?_
  have cleanName := between.clean (last.step.clean clean)
  exact grown.text_ne_empty cleanName (String.append_eq_empty_iff.mp empty).1

private theorem dottedStep_leads {c₀ : Cursor} {name : NameText}
    (grown : name.Grown boundary c₀ c) :
    Leads boundary (dottedStep name) c fun next c' => (next.getD name).Grown boundary c₀ c' := by
  refine .get (.ite (fun _ => ?_) fun _ => .pure grown.sound grown)
  refine (advance_moves.passes c grown.sound).bind fun _ c₁ step₁ _ => ?_
  refine (expect_leads step₁.sound).bind fun part c₂ step₂ spans => .pure step₂.sound ?_
  rw [String.append_assoc]
  exact grown.extend step₁ spans _

private theorem bracketsStep_leads {c₀ : Cursor} {type : NameText}
    (grown : type.Grown boundary c₀ c) :
    Leads boundary (bracketsStep type) c fun next c' => (next.getD type).Grown boundary c₀ c' := by
  refine .get (.ite (fun _ => ?_) fun _ => .pure grown.sound grown)
  refine (advance_moves.passes c grown.sound).bind fun _ c₁ step₁ _ => ?_
  refine (expect_leads step₁.sound).bind fun close c₂ step₂ spans => .pure step₂.sound ?_
  exact grown.extend step₁ spans _

theorem qualifiedName_leads (sound : c.Sound boundary) :
    Leads boundary qualifiedName c fun name c' => c.Spans boundary (.leaf name.1 name.2) c' := by
  refine (expect_leads sound).bind fun first c₁ step₁ isFirst => ?_
  have start : first.span.start = c.here := isFirst.start
  have grown : NameText.Grown boundary ⟨first.text, first.span.stop⟩ c c₁ := by
    rwa [NameText.Grown, ← start]
  have further : Leads boundary (iterate dottedStep ⟨first.text, first.span.stop⟩) c₁
      fun name c' => name.Grown boundary c c' :=
    .iterate step₁.sound grown fun _ _ _ => dottedStep_leads
  refine further.bind fun name c₂ step₂ grown => .pure step₂.sound ?_
  rwa [start]

/-- A type is read, or nothing is. -/
theorem typeRef?_leads (sound : c.Sound boundary) :
    Leads boundary typeRef? c (c.Finds boundary TypeRef.outline) := by
  refine .get (.ite (fun _ => ?_) fun _ => .pure sound .none)
  refine (qualifiedName_leads sound).bind fun (name, span) c₁ step₁ isName => .get ?_
  have start : span.start = c.here := isName.start
  have grown : NameText.Grown boundary ⟨name, span.stop⟩ c c₁ := by rwa [NameText.Grown, ← start]
  -- Brackets may follow on the name and on its type arguments.
  have finish (generic : NameText) (c₂ : Cursor) (grown : generic.Grown boundary c c₂) :
      Leads boundary (do
        let type ← iterate bracketsStep generic
        return some (⟨type.text, ⟨span.start, type.stop⟩⟩ : TypeRef)) c₂
          (c.Finds boundary TypeRef.outline) := by
    have brackets : Leads boundary (iterate bracketsStep generic) c₂
        fun type c' => type.Grown boundary c c' :=
      .iterate grown.sound grown fun _ _ _ => bracketsStep_leads
    refine brackets.bind fun type c₃ step₃ grown => .pure step₃.sound (.some _ ?_)
    rwa [start]
  refine .ite (fun atLess => ?_) fun _ => .pure_bind (finish _ _ grown)
  refine (groupText_leads step₁.sound (rest_ne_nil atLess)).bind fun group c₂ step₂ spans => ?_
  exact .pure_bind (finish _ _ (grown.extend (.refl step₁.sound) spans group.1))

/-- A type that was read may grow further. -/
theorem TypeRef.grown {type : TypeRef} {c' : Cursor}
    (isType : c.Spans boundary type.outline c') :
    NameText.Grown boundary ⟨type.text, type.span.stop⟩ c c' := by
  have start : type.span.start = c.here := isType.start
  rwa [NameText.Grown, ← start]

private theorem typeAfter_leads (keyword : String) (sound : c.Sound boundary) :
    Leads boundary (typeAfter keyword) c fun type c' => c.Spans boundary type.outline c' := by
  refine (typeRef?_leads sound).bind fun type c₁ step₁ read => ?_
  cases read with
  | some type isType => exact .pure step₁.sound isType
  | none =>
    refine (report_leads _ sound).bind fun _ c₂ step₂ reported => .get ?_
    subst reported
    exact .pure step₂.sound (Spans.placeholder step₂ (c.errors_report _) [""])

/-! ## Expressions -/

/-- At every form, what the reader reads from fewer than `bound` tokens spans what was read. -/
def SpansWithin (boundary : Nat → Prop) (nested : Form → Parser Expr) (bound : Nat) : Prop :=
  ∀ form (c : Cursor), c.Sound boundary → c.left < bound →
    Leads boundary (nested form) c fun expr c' => c.Spans boundary expr.outline c'

theorem advanceBy_leads {count : Nat} (sound : c.Sound boundary) (nonempty : c.rest ≠ []) :
    Leads boundary (advanceBy (count + 1)) c
      fun _ c' => c.here ≤ c'.lastEnd ∧ c'.left < c.left := by
  obtain ⟨token, rest, found⟩ := List.exists_cons_of_ne_nil nonempty
  refine (advance_leads sound found).bind fun _ c₁ _ read => ?_
  refine ((advanceBy_moves count).passes c₁ read.spans.sound).mono fun _ c₂ step₂ _ => ?_
  exact ⟨Nat.le_trans read.passed step₂.lastEnd_le, Nat.lt_of_le_of_lt step₂.left_le read.left_lt⟩

private theorem expr_cover {c' c₁ c₂ : Cursor} {first last : Expr}
    (one : c.Spans boundary first.outline c₁) (between : c₁.Step boundary c₂)
    (two : c₂.Spans boundary last.outline c') :
    first.span.cover last.span = ⟨c.here, last.outline.span.stop⟩ := by
  rw [← first.span_outline, ← last.span_outline]
  exact one.cover_eq between two

section Forms

variable {nested : Form → Parser Expr} {bound : Nat} (reads : SpansWithin boundary nested bound)
include reads

private theorem argumentStep_leads (sound : c.Sound boundary) (room : c.left < bound) :
    Leads boundary (argumentStep nested) c fun arguments c' =>
      c.Fits boundary ((arguments.getD []).map Expr.outline) c' := by
  refine .get (.ite (fun _ => .pure sound (.nil (.refl sound))) fun _ => ?_)
  refine (reads .assignment c sound room).bind fun argument c₁ step₁ spans => .get ?_
  refine .ite (fun _ => ?_) fun _ => .pure step₁.sound spans.fits
  exact (advance_moves.passes c₁ step₁.sound).bind fun _ c₂ step₂ _ =>
    .pure step₂.sound (spans.fits.later step₂)

private theorem argumentList_leads (sound : c.Sound boundary)
    (atOpening : c.atKind .openParen = true)
    (room : c.left ≤ bound) : Leads boundary (argumentList nested) c fun list c' =>
      c.Fits boundary (list.1.map Expr.outline) c' ∧
        c.Spans boundary (.node [] ⟨c.here, list.2⟩ []) c' := by
  refine (expect_reads sound atOpening).bind fun opening c₁ step₁ isOpening => ?_
  have fewer : c₁.left < bound := isOpening.room room
  have arguments : Leads boundary (collect (argumentStep nested)) c₁
      fun arguments c' => c₁.Fits boundary (arguments.map Expr.outline) c' :=
    collect_leads step₁.sound fun c' step =>
      argumentStep_leads reads step.sound (step.room_lt fewer)
  refine arguments.bind fun arguments c₂ step₂ fits => ?_
  refine (expect_leads step₂.sound).bind fun closing c₃ step₃ isClosing => .pure step₃.sound ?_
  -- No token ends before one that was read earlier.
  have later : opening.span.stop ≤ closing.span.stop := isOpening.spans.stop_le step₂ isClosing
  rw [Nat.max_eq_left later]
  exact ⟨(fits.earlier step₁).later step₃, (Fits.nil (step₁.trans step₂)).closed isClosing⟩

private theorem lambda?_leads (sound : c.Sound boundary) (room : c.left ≤ bound) :
    Leads boundary (lambda? nested) c (c.Finds boundary Expr.outline) := by
  refine .get ?_
  split
  next => exact .pure sound .none
  next count isLambda =>
    have nonempty : c.rest ≠ [] := by
      intro atEnd
      obtain ⟨-, isArrow⟩ := Option.filter_eq_some_iff.mp isLambda
      simp [atNth, atEnd] at isArrow
    refine (advanceBy_leads sound nonempty).bind fun _ c₁ step₁ read => .get ?_
    obtain ⟨passed, fewer⟩ := read
    -- Whatever the body is, the lambda reaches as far as was read.
    have finish (parser : Parser Unit)
        (leads : Leads boundary parser c₁ fun _ _ => True) : Leads boundary (do
          parser
          let after ← get
          return some (Expr.lambda (after.since c.here))) c₁ (c.Finds boundary Expr.outline) := by
      refine leads.bind fun _ c₂ step₂ _ => .get (.pure step₂.sound (.some _ ?_))
      exact (Fits.nil (step₁.trans step₂)).since (Nat.le_trans passed step₂.lastEnd_le) wordless
    apply Leads.ite
    · exact fun _ => finish _ ((skipGroup_moves _ _).passes c₁ step₁.sound)
    intro _
    apply finish
    exact ⟨(reads .assignment c₁ step₁.sound (Nat.lt_of_lt_of_le fewer room)).step, trivial⟩

private theorem newExpr_leads (sound : c.Sound boundary) (atWord : c.atKind .ident = true)
    (room : c.left ≤ bound) : Leads boundary (newExpr nested) c
      fun expr c' => c.Spans boundary expr.outline c' := by
  refine (expect_reads sound atWord).bind fun keyword c₁ step₁ isKeyword => ?_
  refine (typeAfter_leads _ step₁.sound).bind fun type c₂ step₂ isType => .get ?_
  -- What follows belongs to the creation, with and without arguments.
  have finish (arguments : List Expr) (c₃ : Cursor)
      (fits : c₂.Fits boundary (arguments.map Expr.outline) c₃) : Leads boundary (do
        iterate dimensionStep ()
        skipGroup .openBrace .closeBrace
        let after ← get
        return Expr.new type arguments ⟨keyword.span.start, max after.lastEnd keyword.span.stop⟩)
        c₃ fun expr c' => c.Spans boundary expr.outline c' := by
    have dimensions := (iterate_moves dimensionStep_moves ()).passes c₃ fits.step.sound
    refine dimensions.bind fun _ c₄ step₄ _ => ?_
    refine ((skipGroup_moves _ _).passes c₄ step₄.sound).bind fun _ c₅ step₅ _ => .get ?_
    refine .pure step₅.sound ?_
    have behind := step₄.trans step₅
    have start : keyword.span.start = c.here := isKeyword.spans.start
    have parts := ((isType.fits.append fits).later behind).earlier step₁
    rw [Expr.outline, Expr.outlineAll_eq, start]
    have since := isType.step.trans (fits.step.trans behind)
    exact parts.upToLast (.refl sound) isKeyword.spans since wordless
  refine .ite (fun atOpening => ?_) fun _ => .pure_bind (finish [] c₂ (.nil (.refl step₂.sound)))
  have fewer : c₂.left ≤ bound := Nat.le_of_lt (step₂.room_lt (isKeyword.room room))
  refine (argumentList_leads reads step₂.sound atOpening fewer).bind fun list c₃ _ read => ?_
  exact .pure_bind (finish list.1 c₃ read.1)

omit reads in
private theorem wordExpr_spans {token : Token} {c' : Cursor} (read : c.Read boundary token c') :
    c.Spans boundary (wordExpr token).outline c' := by
  unfold wordExpr
  repeat' split
  all_goals first
    | exact read.plain
    | exact read.spans

private theorem primary_leads (sound : c.Sound boundary) (room : c.left ≤ bound) :
    Leads boundary (primary nested) c fun expr c' => c.Spans boundary expr.outline c' := by
  refine .get ?_
  split
  next atEnd =>
    refine (report_leads _ sound).bind fun _ c₁ step₁ reported => .pure step₁.sound ?_
    subst reported
    exact .hole step₁ (.point sound.here) rfl step₁.here_le (c.errors_report _)
  next token rest found =>
    -- Tokens that are expressions by themselves.
    have literal (expr : Expr) (isToken : expr.outline = token.outline) :
        Leads boundary (do advance; return expr) c fun expr c' =>
          c.Spans boundary expr.outline c' :=
      (advance_leads sound found).bind fun _ c₁ step₁ read =>
        .pure step₁.sound (isToken ▸ read.spans)
    split
    next isWord =>
      have atWord := c.atKind_of_rest found isWord
      refine .ite (fun _ => newExpr_leads reads sound atWord room) fun _ => ?_
      exact (advance_leads sound found).bind fun _ c₁ step₁ read =>
        .pure step₁.sound (wordExpr_spans read)
    · exact literal _ rfl
    · exact literal _ rfl
    · exact literal _ rfl
    next =>
      refine (advance_leads sound found).bind fun _ c₁ step₁ isOpening => ?_
      have fewer := isOpening.room room
      refine (reads .assignment c₁ step₁.sound fewer).bind fun inner c₂ step₂ isInner => ?_
      refine (expect_leads step₂.sound).bind fun closing c₃ step₃ isClosing => .pure step₃.sound ?_
      have later : token.span.stop ≤ closing.span.stop := isOpening.spans.stop_le step₂ isClosing
      have start : token.span.start = c.here := isOpening.spans.start
      rw [Expr.outline, Nat.max_eq_left later, start]
      exact (isInner.fits.earlier step₁).closed isClosing
    next =>
      -- No expression begins here: a placeholder stands in for it, and the error is reported.
      have place : c.place = token.span := by simp only [Cursor.place, found]
      refine (report_leads _ sound).bind fun _ c₁ step₁ reported => ?_
      subst reported
      refine .ite (fun _ => .pure step₁.sound ?_) fun _ => ?_
      · exact .hole step₁ (.point sound.here) rfl step₁.here_le (c.errors_report _)
      · refine (advance_leads step₁.sound found).bind fun _ c₂ step₂ read => .pure step₂.sound ?_
        obtain ⟨valid, -, start, -⟩ := sound.head found
        exact .hole (step₁.trans step₂) valid start read.spans.bounds.2
          fun clean => c.errors_report _ (step₂.clean clean)

/-- What stands behind an expression makes a larger one of it, from the same start. -/
private theorem postfixedStep_leads {c₀ : Cursor} {expr : Expr}
    (spans : c₀.Spans boundary expr.outline c)
    (room : c.left ≤ bound) : Leads boundary (postfixedStep nested expr) c
      fun next c' => c₀.Spans boundary (next.getD expr).outline c' := by
  have sound := spans.sound
  have start : expr.span.start = c₀.here := expr.span_outline ▸ spans.start
  refine .get ?_
  -- By the kind of the token that follows.
  split
  next => exact .pure sound spans
  next token rest found =>
    rw [start]
    split
    next =>
      refine .ite (fun _ => ?_) fun _ => .pure sound spans
      refine (advance_moves.passes c sound).bind fun _ c₁ step₁ _ => ?_
      refine (expect_leads step₁.sound).bind fun name c₂ step₂ isName => .pure step₂.sound ?_
      have parts := spans.fits.append (isName.fits.earlier step₁)
      exact parts.upTo (spans.step.trans step₁) isName wordless
    next isOpening =>
      have atOpening := c.atKind_of_rest found isOpening
      refine (argumentList_leads reads sound atOpening room).bind
        fun (arguments, stop) c₁ step₁ ⟨fits, list⟩ => .pure step₁.sound ?_
      have parts := spans.fits.append fits
      rw [Option.getD_some, Expr.outline, Expr.outlineAll_eq]
      exact parts.upTo spans.step list wordless
    next =>
      refine (advance_leads sound found).bind fun _ c₁ step₁ read => ?_
      have fewer := read.room room
      refine (reads .assignment c₁ step₁.sound fewer).bind fun position c₂ step₂ isPosition => ?_
      refine (expect_leads step₂.sound).bind fun closing c₃ step₃ isClosing => .pure step₃.sound ?_
      exact (spans.fits.append (isPosition.fits.earlier step₁)).closed isClosing
    next =>
      refine (advance_moves.passes c sound).bind fun _ c₁ step₁ _ => ?_
      refine (expect_leads step₁.sound).bind fun name c₂ step₂ isName => .get (.pure step₂.sound ?_)
      have behind := step₁.trans step₂
      refine (spans.fits.later behind).upToLast (spans.step.trans step₁) isName (.refl step₂.sound)
        fun clean => isName.filled clean
    next =>
      split
      next => exact .pure sound spans
      next =>
        refine (advance_leads sound found).bind fun _ c₁ step₁ read => .pure step₁.sound ?_
        have place : expr.span.cover token.span = ⟨c₀.here, token.span.stop⟩ := by
          rw [← expr.span_outline]
          exact spans.cover_eq (.refl sound) read.spans
        rw [Option.getD_some, Expr.outline, place]
        exact (spans.fits.later step₁).upTo spans.step read.spans wordless

private theorem postfixed_leads (sound : c.Sound boundary) (room : c.left ≤ bound) :
    Leads boundary (postfixed nested) c fun expr c' => c.Spans boundary expr.outline c' := by
  refine (primary_leads reads sound room).bind fun first c₁ step₁ spans => ?_
  exact .iterate step₁.sound spans fun expr c₂ step₂ spans =>
    postfixedStep_leads reads spans (spans.step.room_le room)

omit reads in
/-- Reading a further bound of a type keeps what is read of it so far. -/
private theorem castTypeStep_leads {c₀ : Cursor} {type : Option TypeRef}
    (before : c₀.Step boundary c) (spans : ∀ t ∈ type, c₀.Spans boundary t.outline c) :
    Leads boundary (castTypeStep type) c
      fun next c' => ∀ t ∈ next.getD type, c₀.Spans boundary t.outline c' := by
  cases type with
  | none => exact .pure before.sound spans
  | some type =>
    have isType := spans type rfl
    refine .get (.ite (fun _ => ?_) fun _ => .pure before.sound spans)
    refine (advance_moves.passes c before.sound).bind fun _ c₁ step₁ _ => ?_
    refine (typeRef?_leads step₁.sound).bind fun further c₂ step₂ read => ?_
    -- Where no bound follows the type is given up.
    cases read with
    | none => exact .pure step₂.sound fun _ absurd => by cases absurd
    | some further isBound =>
      refine .pure step₂.sound fun t same => ?_
      cases same
      have place : type.span.cover further.span = ⟨c₀.here, further.span.stop⟩ :=
        isType.cover_eq step₁ isBound
      rw [TypeRef.outline, place, String.append_assoc]
      exact (TypeRef.grown isType).extend step₁ isBound _

omit reads in
private theorem castType?_leads (sound : c.Sound boundary) :
    Leads boundary castType? c
      fun type c' => ∀ t ∈ type, c.Spans boundary t.outline c' ∧ c'.atKind .closeParen = true := by
  refine (typeRef?_leads sound).bind fun type c₁ step₁ read => ?_
  -- The first type and then all bounds span what was read so far.
  have initially : ∀ t ∈ type, c.Spans boundary t.outline c₁ := by
    rintro t rfl
    cases read with
    | some _ isType => exact isType
  have further : Leads boundary (iterate castTypeStep type) c₁
      fun type c' => ∀ t ∈ type, c.Spans boundary t.outline c' :=
    .iterate step₁.sound initially fun _ _ step => castTypeStep_leads (step₁.trans step)
  refine further.bind fun type c₂ step₂ spans => .get (.pure step₂.sound fun t found => ?_)
  obtain ⟨isType, closes⟩ := Option.filter_eq_some_iff.mp found
  rw [Bool.and_eq_true] at closes
  exact ⟨spans t isType, closes.1⟩

private theorem cast?_leads (sound : c.Sound boundary) (atOpening : c.atKind .openParen = true)
    (room : c.left ≤ bound) : Leads boundary (cast? nested) c (c.Finds boundary Expr.outline) := by
  obtain ⟨opening, rest, found, -⟩ := exists_of_atKind atOpening
  -- What is no cast is read again from its parenthesis, without the errors found since.
  refine .get (.of_ensures ((advance_leads sound found).after fun _ c₁ step₁ isOpening => ?_))
  refine (castType?_leads step₁.sound).after fun type c₂ step₂ isType => ?_
  cases type with
  | none => exact ⟨.refl sound, .none⟩
  | some type =>
    obtain ⟨isType, atClosing⟩ := isType type rfl
    obtain ⟨closing, rest, foundClosing, -⟩ := exists_of_atKind atClosing
    refine Leads.ensures (step₁.trans step₂) ?_
    refine (advance_leads step₂.sound foundClosing).bind fun _ c₃ step₃ isClosing => ?_
    have fewer : c₃.left < bound := (step₂.trans step₃).room_lt (isOpening.room room)
    -- The operand is a lambda or unary; the cast ends where it does.
    have finish (operand : Expr) (c₄ : Cursor) (isOperand : c₃.Spans boundary operand.outline c₄) :
        Leads boundary (pure (some (Expr.cast type operand
          ⟨c.place.start, max operand.span.stop c.place.stop⟩))) c₄
          (c.Finds boundary Expr.outline) := by
      have place : c.place = opening.span := by simp only [Cursor.place, found]
      have start : opening.span.start = c.here := isOpening.spans.start
      have later : opening.span.stop ≤ operand.outline.span.stop :=
        isOpening.spans.stop_le (step₂.trans step₃) isOperand
      have parts := ((isType.fits.later step₃).append isOperand.fits).earlier step₁
      rw [place, start, ← operand.span_outline, Nat.max_eq_left later]
      refine .pure isOperand.sound (.some _ ?_)
      exact parts.upTo (step₁.trans (step₂.trans step₃)) isOperand wordless
    have room := Nat.le_of_lt fewer
    refine (lambda?_leads reads step₃.sound room).bind fun lambda c₄ step₄ read => ?_
    cases read with
    | some lambda isLambda => exact .pure_bind (finish lambda c₄ isLambda)
    | none =>
      exact (reads .unary c₃ step₃.sound fewer).bind fun operand c₅ _ => finish operand c₅

private theorem signed_leads (sound : c.Sound boundary) (room : c.left ≤ bound) :
    Leads boundary (signed nested) c fun expr c' => c.Spans boundary expr.outline c' := by
  refine .get ?_
  split
  next => exact postfixed_leads reads sound room
  next op isOp =>
    obtain ⟨token, rest, found⟩ := exists_of_kind? isOp
    refine (advance_leads sound found).bind fun _ c₁ step₁ isSign => ?_
    have fewer := isSign.room room
    refine (reads .unary c₁ step₁.sound fewer).bind fun operand c₂ step₂ isOperand =>
      .pure step₂.sound ?_
    have later : c.here ≤ operand.outline.span.stop :=
      Nat.le_trans step₁.here_le isOperand.bounds.1
    rw [Expr.outline, ← operand.span_outline, Nat.max_eq_left later]
    exact (isOperand.fits.earlier step₁).upTo step₁ isOperand wordless

private theorem unary_leads (sound : c.Sound boundary) (room : c.left ≤ bound) :
    Leads boundary (unary nested) c fun expr c' => c.Spans boundary expr.outline c' := by
  refine .get (.ite (fun atOpening => ?_) fun _ => signed_leads reads sound room)
  refine (cast?_leads reads sound atOpening room).bind fun cast c₁ step₁ read => ?_
  cases read with
  | some cast isCast => exact .pure step₁.sound isCast
  | none => exact signed_leads reads sound room

omit reads in
private theorem instanceOf_leads {c₀ : Cursor} {operand : Expr}
    (spans : c₀.Spans boundary operand.outline c) :
    Leads boundary (instanceOf operand) c fun expr c' => c₀.Spans boundary expr.outline c' := by
  have start : operand.span.start = c₀.here := operand.span_outline ▸ spans.start
  refine (advance_moves.passes c spans.sound).bind fun _ c₁ step₁ _ => ?_
  refine ((skipWord_moves _).passes c₁ step₁.sound).bind fun _ c₂ step₂ _ => ?_
  refine (typeAfter_leads _ step₂.sound).bind fun type c₃ step₃ isType => .get ?_
  have before := step₁.trans step₂
  have finish (c₄ : Cursor) (step₄ : c₃.Step boundary c₄) : Leads boundary (do
      let after ← get
      return Expr.instanceOf operand type ⟨operand.span.start, max after.lastEnd type.span.stop⟩)
      c₄ fun expr c' => c₀.Spans boundary expr.outline c' := by
    refine .get (.pure step₄.sound ?_)
    rw [Expr.outline, start]
    have parts := (spans.fits.append (isType.fits.earlier before)).later step₄
    exact parts.upToLast (spans.step.trans before) isType step₄ wordless
  refine .ite (fun _ => ?_) fun _ => finish c₃ (.refl step₃.sound)
  exact (advance_moves.passes c₃ step₃.sound).bind fun _ c₄ step₄ _ => finish c₄ step₄

private theorem binaryStep_leads {c₀ : Cursor} {minimum : Nat} {left : Expr}
    (spans : c₀.Spans boundary left.outline c) (room : c.left ≤ bound) :
    Leads boundary (binaryStep nested minimum left) c
      fun next c' => c₀.Spans boundary (next.getD left).outline c' := by
  have sound := spans.sound
  refine .get (.ite (fun _ => .ite (fun _ => .pure sound spans) fun _ => ?_) fun _ => ?_)
  · exact (instanceOf_leads spans).bind fun expr c₁ step₁ spans => .pure step₁.sound spans
  · split
    next => exact .pure sound spans
    next op isOp =>
      obtain ⟨token, rest, found⟩ := exists_of_kind? isOp
      refine .ite (fun _ => .pure sound spans) fun _ => ?_
      refine (advance_leads sound found).bind fun _ c₁ step₁ isOperator => ?_
      have fewer := isOperator.room room
      refine (reads _ c₁ step₁.sound fewer).bind fun right c₂ step₂ isRight => .pure step₂.sound ?_
      rw [Option.getD_some, Expr.outline, expr_cover spans step₁ isRight]
      have parts := spans.fits.append (isRight.fits.earlier step₁)
      exact parts.upTo (spans.step.trans step₁) isRight wordless

private theorem binary_leads {minimum : Nat} (sound : c.Sound boundary) (room : c.left ≤ bound) :
    Leads boundary (binary nested minimum) c fun expr c' => c.Spans boundary expr.outline c' := by
  refine (unary_leads reads sound room).bind fun first c₁ step₁ spans => ?_
  exact .iterate step₁.sound spans fun expr c₂ step₂ spans =>
    binaryStep_leads reads spans (spans.step.room_le room)

private theorem conditional_leads (sound : c.Sound boundary) (room : c.left ≤ bound) :
    Leads boundary (conditional nested) c fun expr c' => c.Spans boundary expr.outline c' := by
  refine (binary_leads reads sound room).bind fun condition c₁ step₁ isCondition => .get ?_
  refine .ite (fun atQuestion => ?_) fun _ => .pure step₁.sound isCondition
  obtain ⟨question, rest, found, -⟩ := exists_of_atKind atQuestion
  refine (advance_leads step₁.sound found).bind fun _ c₂ step₂ isQuestion => ?_
  have fewer : c₂.left < bound := isQuestion.room (step₁.room_le room)
  refine (reads .assignment c₂ step₂.sound fewer).bind fun whenTrue c₃ step₃ isTrue => ?_
  refine ((discard_moves (expect_moves .colon)).passes c₃ step₃.sound).bind fun _ c₄ step₄ _ => ?_
  have fewer : c₄.left < bound := (step₃.trans step₄).room_lt fewer
  refine (reads .conditional c₄ step₄.sound fewer).bind fun whenFalse c₅ step₅ isFalse =>
    .pure step₅.sound ?_
  have behind := step₂.trans (step₃.trans step₄)
  have branches := (isTrue.fits.append (isFalse.fits.earlier step₄)).earlier step₂
  rw [Expr.outline, expr_cover isCondition behind isFalse]
  exact (isCondition.fits.append branches).upTo (step₁.trans behind) isFalse wordless

private theorem assignment_leads (sound : c.Sound boundary) (room : c.left ≤ bound) :
    Leads boundary (assignment nested) c fun expr c' => c.Spans boundary expr.outline c' := by
  refine (lambda?_leads reads sound room).bind fun lambda c₁ step₁ read => ?_
  cases read with
  | some lambda isLambda => exact .pure step₁.sound isLambda
  | none =>
    refine (conditional_leads reads sound room).bind fun target c₂ step₂ isTarget => .get ?_
    refine .ite (fun atAssign => ?_) fun _ => .pure step₂.sound isTarget
    obtain ⟨equals, rest, found, -⟩ := exists_of_atKind atAssign
    refine (advance_leads step₂.sound found).bind fun _ c₃ step₃ isEquals => ?_
    have fewer : c₃.left < bound := isEquals.room (step₂.room_le room)
    refine (reads .assignment c₃ step₃.sound fewer).bind fun value c₄ step₄ isValue =>
      .pure step₄.sound ?_
    rw [Expr.outline, expr_cover isTarget step₃ isValue]
    have parts := isTarget.fits.append (isValue.fits.earlier step₃)
    exact parts.upTo (step₂.trans step₃) isValue wordless

private theorem ofForm_leads (form : Form) (sound : c.Sound boundary) (room : c.left ≤ bound) :
    Leads boundary (ofForm nested form) c fun expr c' => c.Spans boundary expr.outline c' := by
  cases form with
  | assignment => exact assignment_leads reads sound room
  | conditional => exact conditional_leads reads sound room
  | binary minimum => exact binary_leads reads sound room
  | unary => exact unary_leads reads sound room

end Forms

/-- A reader of a depth reads from fewer tokens; where the depth is zero there are none. -/
private theorem exprWithin_spans (depth : Nat) : SpansWithin boundary (exprWithin depth) depth := by
  induction depth with
  | zero => exact fun _ c _ room => absurd room (Nat.not_lt_zero _)
  | succ depth ih =>
    exact fun form c sound room => ofForm_leads ih form sound (Nat.le_of_lt_succ room)

theorem expr_leads (sound : c.Sound boundary) :
    Leads boundary expr c fun expr c' => c.Spans boundary expr.outline c' :=
  .get (exprWithin_spans _ _ c sound (Nat.lt_succ_self _))

end Parser
end MethodContracts.Source
