import MethodContracts.Proofs.Source.NameRuns

/-!
# Expressions in two runs

What an expression nests is read by other readers, which agree where fewer tokens are left than
some bound. So readers of any two depths that exceed the number of tokens left agree: the depth
is never what ends an expression.
-/
namespace MethodContracts.Source

open Source.Frame

variable {frame : Frame} {c c' : Cursor}

/-! ## Looking ahead -/

/-- No group that is open at the end is closed by what stands behind it. -/
private theorem groupLengthFrom_tail (frame : Frame) (opening closing : TokenKind) (depth : Nat)
    (other : closing ≠ .closeBrace) (tokens : List Token) :
    groupLengthFrom opening closing depth (tokens.map (Token.moved frame.move) ++ frame.tail) =
      groupLengthFrom opening closing depth tokens := by
  induction tokens generalizing depth with
  | cons token rest ih =>
    simp only [List.map_cons, List.cons_append, groupLengthFrom, ih]
    rfl
  | nil =>
    -- Only closing braces stand behind the tokens, and they close no group of another kind.
    have unclosed (tail : List Token) (closes : ∀ token ∈ tail, token.kind = .closeBrace) :
        groupLengthFrom opening closing depth tail = none := by
      induction tail generalizing depth with
      | nil => rfl
      | cons brace rest ih =>
        have isBrace := closes brace List.mem_cons_self
        have behind := fun depth => ih depth fun token member =>
          closes token (List.mem_cons_of_mem _ member)
        rw [groupLengthFrom, if_neg fun closed => other (closed.2.1.symm.trans isBrace), behind]
        rfl
    exact unclosed frame.tail frame.closes

namespace Frame.Alike

theorem lambdaParams? (alike : frame.Alike c c') : c'.lambdaParams? = c.lambdaParams? := by
  have arrow (n : Nat) : c'.atNth n .arrow = c.atNth n .arrow := alike.atNth n nofun
  have grouped : groupLength? .openParen .closeParen c'.rest =
      groupLength? .openParen .closeParen c.rest := by
    rw [alike.rest]
    exact groupLengthFrom_tail frame .openParen .closeParen 0 nofun c.rest
  unfold Cursor.lambdaParams?
  simp only [arrow, grouped, kind?_eq]
  rcases alike.getElem? 0 with same | ⟨unseen, brace, seen, isBrace⟩
  · rw [same, Option.map_map]
    rfl
  · rw [unseen, seen, Option.map_some, isBrace]
    rfl

theorem atCastOperand (alike : frame.Alike c c') (type : String) :
    c'.atCastOperand type = c.atCastOperand type := by
  unfold Cursor.atCastOperand
  rcases alike.getElem? 1 with same | ⟨unseen, brace, seen, isBrace⟩
  · rw [same]
    cases c.rest[1]? <;> rfl
  · rw [unseen, seen]
    simp only [isBrace]

end Frame.Alike

namespace Parser

open Cursor Source.Frame

/-! ## Readers that skip -/

theorem advance_agrees (alike : frame.Alike c c') : frame.Agrees advance advance c c' id :=
  (advance_outruns alike).agrees

theorem expect_agrees (alike : frame.Alike c c') (kind : TokenKind) :
    frame.Agrees (expect kind) (expect kind) c c' (Token.moved frame.move) :=
  (expect_outruns alike kind).agrees

theorem advanceBy_agrees (alike : frame.Alike c c') (count : Nat) :
    frame.Agrees (advanceBy count) (advanceBy count) c c' id := by
  induction count generalizing c c' with
  | zero => exact .pure alike rfl
  | succ count ih => exact (advance_agrees alike).bind fun _ c₁ c₁' _ alike₁ => ih alike₁

private theorem skipGroupStep_agrees (alike : frame.Alike c c') (opening closing : TokenKind)
    (depth : Nat) :
    frame.Agrees (skipGroupStep opening closing depth) (skipGroupStep opening closing depth) c c'
      (Option.map id) := by
  refine .branch (fun _ => .pure alike rfl) fun _ =>
    (advance?_outruns alike).agrees.bind fun token c₁ c₁' _ alike₁ => ?_
  cases token <;> exact .pure alike₁ rfl

theorem skipGroup_agrees (alike : frame.Alike c c') (opening closing : TokenKind)
    (other : opening ≠ .closeBrace) :
    frame.Agrees (skipGroup opening closing) (skipGroup opening closing) c c' id := by
  refine .get <| .ite (alike.atKind other) (fun _ => ?_) fun _ => .pure alike rfl
  refine (advance_agrees alike).bind fun _ c₁ c₁' _ alike₁ => ?_
  exact Follows.discard (Agrees.iterate (skipGroupStep_winds opening closing)
    (skipGroupStep_winds opening closing) (skipGroupStep_moves opening closing) alike₁
    (fun depth c₂ c₂' _ alike₂ => skipGroupStep_agrees alike₂ opening closing depth) 1)

theorem skipWhile_agrees {go : Cursor → Bool} (alike : frame.Alike c c')
    (same : ∀ d d', frame.Alike d d' → frame.Inside d → go d' = go d) :
    frame.Agrees (skipWhile go) (skipWhile go) c c' id := by
  refine Agrees.iterate (g := id) (skipStep_winds go) (skipStep_winds go) (skipStep_moves go) alike
    (fun value c₁ c₁' _ alike₁ => ?_) ()
  refine .inside (skipStep_moves go value c₁) fun inside => .get <| .ite
    (congrArg₂ or (alike₁.atEnd inside) (congrArg not (same _ _ alike₁ inside)))
    (fun _ => .pure alike₁ rfl) fun _ => ?_
  exact (advance_agrees alike₁).bind fun _ c₂ c₂' _ alike₂ => .pure alike₂ rfl

/-! ## Casts -/

private theorem castTypeStep_outruns (alike : frame.Alike c c') (type : Option TypeRef) :
    frame.Outruns (castTypeStep type) (castTypeStep (type.map (TypeRef.moved frame.move))) c c'
      (Option.map (Option.map (TypeRef.moved frame.move))) := by
  cases type with
  | none => exact .pure alike rfl
  | some type =>
    refine .get <| .ite (alike.atKind (by decide)) (fun _ => ?_) fun _ => .pure alike rfl
    refine (advance_outruns alike).bind (fun _ c₁ c₁' _ alike₁ => ?_) fun _ => ?_
    · refine (typeRef?_outruns alike₁).bind (fun bound c₂ c₂' _ alike₂ => ?_) fun bound => ?_
      · cases bound with
        | none => exact .pure alike₂ rfl
        | some bound =>
          refine .pure alike₂ ?_
          simp only [Option.map_some, TypeRef.moved, cover_moved frame.keeps]
      · cases bound <;> exact .pure _
    · refine typeRef?_moves.bind fun bound => ?_
      cases bound <;> exact .pure _

/-- The type and its bounds are read first, and what follows decides whether it is a cast. -/
private theorem castType?_eq (c : Cursor) :
    castType? c =
      have read := (typeRef? >>= iterate castTypeStep) c
      (read.1.filter fun type =>
        read.2.atKind .closeParen && read.2.atCastOperand type.text, read.2) := rfl

/-- Whether there is a cast does not depend on what stands behind the tokens: at their end
there is no parenthesis that closes it. -/
private theorem castType?_same (alike : frame.Alike c c') :
    (castType? c').1 = (castType? c).1.map (TypeRef.moved frame.move) ∧
      ((castType? c).1 ≠ none → frame.Alike (castType? c).2 (castType? c').2) := by
  have read := (typeRef?_outruns alike).bind (fun type c₁ c₁' _ alike₁ =>
    Outruns.iterate castTypeStep_winds castTypeStep_moves alike₁
      (fun type c₂ c₂' _ alike₂ => castTypeStep_outruns alike₂ type) type)
    fun _ => iterate_moves castTypeStep_moves _
  rw [castType?_eq, castType?_eq]
  -- The runs are still alike, or the first used up its tokens and the other read on.
  rcases read.after with ⟨same, alike₁⟩ | ⟨past, behind⟩
  · refine ⟨?_, fun _ => alike₁⟩
    have closing := alike₁.atKind (show TokenKind.closeParen ≠ .closeBrace from nofun)
    simp only [same, closing, alike₁.atCastOperand, Option.filter_map]
    rfl
  · -- Behind the last token no parenthesis closes, so neither run takes it for a cast.
    have unclosed : ((typeRef? >>= iterate castTypeStep) c).2.atKind .closeParen = false :=
      atKind_atEnd past.2 _
    have unclosed' : ((typeRef? >>= iterate castTypeStep) c').2.atKind .closeParen = false :=
      atKind_behind behind nofun
    have declines (type : Option TypeRef) : type.filter (fun _ => false) = none := by
      cases type <;> rfl
    simp only [unclosed, unclosed', Bool.false_and, declines]
    exact ⟨rfl, fun taken => absurd rfl taken⟩

/-! ## Expressions over a reader of nested expressions -/

section Forms

variable {nested nested' : Form → Parser Expr} {bound : Nat}
  (nests : Agreeing frame bound (Expr.moved frame.move) nested nested')
include nests

private theorem argumentStep_agrees (alike : frame.Alike c c') (room : c.left < bound) :
    frame.Agrees (argumentStep nested) (argumentStep nested') c c'
      (Option.map (List.map (Expr.moved frame.move))) := by
  refine .inside (argumentStep_moves nests.moves c) fun inside => .get <| .ite
    (congrArg₂ or (alike.atEnd inside) (alike.atKind_inside inside _))
    (fun _ => .pure alike rfl) fun _ => ?_
  refine (nests.agrees .assignment c c' alike room).bind fun argument c₁ c₁' before₁ alike₁ =>
    .get ?_
  refine .ite (congrArg₂ or (alike₁.atKind nofun) (alike.left_beq alike₁)) (fun _ => ?_)
    fun _ => .pure alike₁ rfl
  exact (advance_agrees alike₁).bind fun _ c₂ c₂' _ alike₂ => .pure alike₂ rfl

private theorem argumentList_agrees (alike : frame.Alike c c')
    (atOpening : c.atKind .openParen = true) (room : c.left ≤ bound) :
    frame.Agrees (argumentList nested) (argumentList nested') c c'
      (Prod.map (List.map (Expr.moved frame.move)) frame.move) := by
  refine (expect_agrees alike .openParen).bind_at fun c₁' alike₁ => ?_
  -- The parenthesis is read, so there is room for each argument.
  have fewer := Nat.lt_of_lt_of_le (expect_atKind_reads atOpening) room
  refine (Agrees.collect (argumentStep_winds nests.moves) (argumentStep_winds nests.moves')
    (argumentStep_moves nests.moves') alike₁ fun c₂ c₂' before₂ alike₂ =>
      argumentStep_agrees nests alike₂ (Nat.lt_of_le_of_lt before₂.left_le fewer)).bind
    fun arguments c₂ c₂' _ alike₂ => ?_
  refine (expect_agrees alike₂ .closeParen).bind fun closing c₃ c₃' _ alike₃ => .pure alike₃ ?_
  simp only [Prod.map, Token.moved, Span.moved, frame.keeps.map_max]

private theorem lambda?_agrees (alike : frame.Alike c c') (room : c.left ≤ bound) :
    frame.Agrees (lambda? nested) (lambda? nested') c c'
      (Option.map (Expr.moved frame.move)) := by
  refine .get ?_
  rw [alike.lambdaParams?]
  cases params : c.lambdaParams? with
  | none => exact .pure alike rfl
  | some count =>
    -- There are parameters, so there is a first token.
    have nonempty : c.rest ≠ [] := fun atEnd => by
      rw [Cursor.lambdaParams?, kind?, atEnd] at params
      cases params
    have inside : frame.Inside c := .inr nonempty
    refine (advanceBy_agrees alike (count + 1)).bind_at fun c₁' alike₁ => .get ?_
    have fewer := Nat.lt_of_lt_of_le (advanceBy_reads count nonempty) room
    rw [alike.here inside]
    -- The body is a block that is skipped, or an expression.
    refine .ite (alike₁.atKind (by decide)) (fun _ => ?_) fun _ => ?_
    · refine (skipGroup_agrees alike₁ .openBrace .closeBrace (by decide)).bind ?_
      exact fun _ c₂ c₂' _ alike₂ => .get (.pure alike₂ (by rw [alike₂.since]; rfl))
    · refine Agrees.bind (nests.agrees .assignment _ c₁' alike₁ fewer).discard
        fun _ c₂ c₂' _ alike₂ => .get (.pure alike₂ (by rw [alike₂.since]; rfl))

omit nests in
private theorem dimensionStep_agrees (alike : frame.Alike c c') (value : Unit) :
    frame.Agrees (dimensionStep value) (dimensionStep value) c c' (Option.map id) := by
  refine .get <| .ite (alike.atKind nofun) (fun _ => ?_) fun _ => .pure alike rfl
  exact (skipGroup_agrees alike .openBracket .closeBracket nofun).bind
    fun _ c₁ c₁' _ alike₁ => .pure alike₁ rfl

private theorem newExpr_agrees (alike : frame.Alike c c') (atWord : c.atKind .ident = true)
    (room : c.left ≤ bound) :
    frame.Agrees (newExpr nested) (newExpr nested') c c' (Expr.moved frame.move) := by
  refine (expect_agrees alike .ident).bind_at fun c₁' alike₁ => ?_
  generalize (expect .ident c).1 = keyword at *
  have fewer := Nat.lt_of_lt_of_le (expect_atKind_reads atWord) room
  refine (typeAfter_outruns alike₁ "new").agrees.bind fun type c₂ c₂' before₂ alike₂ => .get ?_
  -- What follows on the arguments is the same whether there are any or not.
  have finish (arguments : List Expr) {c₃ c₃' : Cursor} (alike₃ : frame.Alike c₃ c₃') :
      frame.Agrees
        (do
          iterate dimensionStep ()
          skipGroup .openBrace .closeBrace
          let after ← get
          return Expr.new type arguments
            ⟨keyword.span.start, max after.lastEnd keyword.span.stop⟩)
        (do
          iterate dimensionStep ()
          skipGroup .openBrace .closeBrace
          let after ← get
          return Expr.new (type.moved frame.move) (arguments.map (Expr.moved frame.move))
            ⟨frame.move keyword.span.start, max after.lastEnd (frame.move keyword.span.stop)⟩)
        c₃ c₃' (Expr.moved frame.move) := by
    refine (Agrees.iterate (g := id) dimensionStep_winds dimensionStep_winds dimensionStep_moves
      alike₃ (fun value d d' _ alike => dimensionStep_agrees alike value) ()).bind
      fun _ c₄ c₄' _ alike₄ => ?_
    refine (skipGroup_agrees alike₄ .openBrace .closeBrace nofun).bind
      fun _ c₅ c₅' _ alike₅ => .get (.pure alike₅ ?_)
    rw [Expr.moved, Expr.movedAll_eq, alike₅.lastEnd]
    rfl
  refine .ite (alike₂.atKind nofun) (fun atOpening => ?_) fun _ => .pure_bind (finish [] alike₂)
  have within := Nat.le_of_lt (Nat.lt_of_le_of_lt before₂.left_le fewer)
  exact (argumentList_agrees nests alike₂ atOpening within).bind
    fun list c₃ c₃' _ alike₃ => .pure_bind (finish list.1 alike₃)

omit nests in
private theorem wordExpr_moved (token : Token) :
    wordExpr (token.moved frame.move) = (wordExpr token).moved frame.move := by
  simp only [wordExpr, apply_ite (Expr.moved frame.move), Expr.moved]
  rfl

private theorem primary_agrees (alike : frame.Alike c c') (room : c.left ≤ bound) :
    frame.Agrees (primary nested) (primary nested') c c' (Expr.moved frame.move) := by
  refine .inside (primary_moves nests.moves c) fun inside => .get ?_
  have here := alike.here inside
  have reported := (report_outruns alike .expression).agrees
  cases found : c.rest with
  | nil =>
    rw [alike.rest_nil inside found]
    exact reported.bind fun _ c₁ c₁' _ alike₁ => .pure alike₁ (by rw [here]; rfl)
  | cons token rest =>
    have nonempty : c.rest ≠ [] := found ▸ List.cons_ne_nil _ _
    have sameKind : (token.moved frame.move).kind = token.kind := rfl
    rw [alike.rest_cons found]
    simp only [sameKind]
    -- Both runs are at a token of the same kind, which decides how a primary goes on.
    split
    next isWord =>
      refine .ite (alike.atWord _) (fun _ => ?_) fun _ => ?_
      · exact newExpr_agrees nests alike (c.atKind_of_rest found isWord) room
      · exact (advance_agrees alike).bind fun _ c₁ c₁' _ alike₁ =>
          .pure alike₁ (wordExpr_moved token)
    next => exact (advance_agrees alike).bind fun _ c₁ c₁' _ alike₁ => .pure alike₁ rfl
    next => exact (advance_agrees alike).bind fun _ c₁ c₁' _ alike₁ => .pure alike₁ rfl
    next => exact (advance_agrees alike).bind fun _ c₁ c₁' _ alike₁ => .pure alike₁ rfl
    next =>
      refine Agrees.advance alike nonempty fun fewer alike₁ => ?_
      refine (nests.agrees .assignment _ _ alike₁ (Nat.lt_of_lt_of_le fewer room)).bind
        fun inner c₂ c₂' _ alike₂ => ?_
      refine (expect_agrees alike₂ .closeParen).bind fun closing c₃ c₃' _ alike₃ =>
        .pure alike₃ ?_
      simp only [Expr.moved, Span.moved, Token.moved, frame.keeps.map_max]
    next =>
      refine reported.bind fun _ c₁ c₁' _ alike₁ => .branch (fun _ => ?_) fun _ => ?_
      · exact .pure alike₁ (by rw [here]; rfl)
      · exact (advance_agrees alike₁).bind fun _ c₂ c₂' _ alike₂ => .pure alike₂ rfl

private theorem postfixedStep_agrees (alike : frame.Alike c c') (room : c.left ≤ bound)
    (expr : Expr) :
    frame.Agrees (postfixedStep nested expr) (postfixedStep nested' (expr.moved frame.move)) c c'
      (Option.map (Expr.moved frame.move)) := by
  refine .inside (postfixedStep_moves nests.moves expr c) fun inside => .get ?_
  have start : (expr.moved frame.move).span = expr.span.moved frame.move := expr.span_moved _
  cases found : c.rest with
  | nil =>
    rw [alike.rest_nil inside found]
    exact .pure alike rfl
  | cons token rest =>
    have nonempty : c.rest ≠ [] := found ▸ List.cons_ne_nil _ _
    have sameKind : (token.moved frame.move).kind = token.kind := rfl
    rw [alike.rest_cons found]
    simp only [sameKind, start]
    -- Again the kind of the token decides, and it is the same in both runs.
    split
    next =>
      refine .ite (alike.atNth 1 nofun) (fun _ => ?_) fun _ => .pure alike rfl
      refine (advance_agrees alike).bind fun _ c₁ c₁' _ alike₁ => ?_
      exact (expect_agrees alike₁ .ident).bind fun member c₂ c₂' _ alike₂ => .pure alike₂ rfl
    next isOpening =>
      refine (argumentList_agrees nests alike (c.atKind_of_rest found isOpening) room).bind
        fun list c₁ c₁' _ alike₁ => .pure alike₁ ?_
      rw [Option.map_some, Expr.moved, Expr.movedAll_eq]
      rfl
    next =>
      refine Agrees.advance alike nonempty fun fewer alike₁ => ?_
      refine (nests.agrees .assignment _ _ alike₁ (Nat.lt_of_lt_of_le fewer room)).bind
        fun position c₂ c₂' _ alike₂ => ?_
      exact (expect_agrees alike₂ .closeBracket).bind fun closing c₃ c₃' _ alike₃ =>
        .pure alike₃ rfl
    next =>
      refine (advance_agrees alike).bind fun _ c₁ c₁' _ alike₁ => ?_
      refine (expect_agrees alike₁ .ident).bind fun member c₂ c₂' _ alike₂ =>
        .get (.pure alike₂ ?_)
      simp only [Token.moved, Span.moved, alike₂.lastEnd]
      rfl
    next =>
      split
      next => exact .pure alike rfl
      next =>
        refine (advance_agrees alike).bind fun _ c₁ c₁' _ alike₁ => .pure alike₁ ?_
        simp only [Token.moved, cover_moved frame.keeps, Option.map_some, Expr.moved]

private theorem postfixed_agrees (alike : frame.Alike c c') (room : c.left ≤ bound) :
    frame.Agrees (postfixed nested) (postfixed nested') c c' (Expr.moved frame.move) :=
  (primary_agrees nests alike room).bind fun first _ _ before₁ alike₁ =>
    Agrees.iterate (postfixedStep_winds nests.moves) (postfixedStep_winds nests.moves')
      (postfixedStep_moves nests.moves') alike₁ (fun expr _ _ before₂ alike₂ =>
        postfixedStep_agrees nests alike₂
          (Nat.le_trans (before₁.trans before₂).left_le room) expr) first

private theorem cast?_agrees (alike : frame.Alike c c') (atOpening : c.atKind .openParen = true)
    (room : c.left ≤ bound) :
    frame.Agrees (cast? nested) (cast? nested') c c' (Option.map (Expr.moved frame.move)) := by
  have nonempty := rest_ne_nil atOpening
  have inside : frame.Inside c := .inr nonempty
  have place := alike.place inside
  obtain ⟨same, alike₂⟩ := castType?_same (alike.next inside)
  have fewer : (castType? c.next).2.left < bound :=
    Nat.lt_of_le_of_lt (castType?_moves c.next).left_le
      (Nat.lt_of_lt_of_le (advance_reads nonempty) room)
  refine ⟨cast?_moves nests.moves c, ?_⟩
  -- The type is read ahead; if it is no cast, both runs are back where they began.
  simp only [cast?, run_bind, run_get, run_advance, same]
  cases known : (castType? c.next).1 with
  | none => exact .inl ⟨rfl, alike⟩
  | some type =>
    have alike₂ := alike₂ (by rw [known]; exact Option.some_ne_none type)
    refine Follows.after ((advance_agrees alike₂).bind fun _ c₃ c₃' before₃ alike₃ => ?_)
    have fewer₃ := Nat.lt_of_le_of_lt before₃.left_le fewer
    -- The operand is a lambda or unary, and the cast is made of it in the same way.
    have finish (operand : Expr) {c₄ c₄' : Cursor} (alike₄ : frame.Alike c₄ c₄') :
        frame.Agrees
          (pure (some (Expr.cast type operand
            ⟨c.place.start, max operand.span.stop c.place.stop⟩)))
          (pure (some (Expr.cast (type.moved frame.move) (operand.moved frame.move)
            ⟨c'.place.start, max (operand.moved frame.move).span.stop c'.place.stop⟩)))
          c₄ c₄' (Option.map (Expr.moved frame.move)) := by
      refine .pure alike₄ ?_
      simp only [place, Expr.span_moved, Span.moved, Option.map_some, Expr.moved,
        frame.keeps.map_max]
    refine (lambda?_agrees nests alike₃ (Nat.le_of_lt fewer₃)).bind
      fun lambda c₄ c₄' before₄ alike₄ => ?_
    cases lambda with
    | some lambda => exact .pure_bind (finish lambda alike₄)
    | none =>
      exact (nests.agrees .unary _ _ alike₄ (Nat.lt_of_le_of_lt before₄.left_le fewer₃)).bind
        fun operand c₅ c₅' _ alike₅ => finish operand alike₅

private theorem signed_agrees (alike : frame.Alike c c') (room : c.left ≤ bound) :
    frame.Agrees (signed nested) (signed nested') c c' (Expr.moved frame.move) := by
  refine .get ?_
  rw [alike.bind_kind? rfl]
  cases known : c.kind?.bind TokenKind.prefixedOp? with
  | none => exact postfixed_agrees nests alike room
  | some op =>
    -- The sign is read, so there is room for its operand.
    obtain ⟨token, rest, found⟩ := exists_of_kind? known
    have nonempty : c.rest ≠ [] := found ▸ List.cons_ne_nil _ _
    refine Agrees.advance alike nonempty fun fewer alike₁ => ?_
    refine (nests.agrees .unary _ _ alike₁ (Nat.lt_of_lt_of_le fewer room)).bind
      fun operand c₂ c₂' _ alike₂ => .pure alike₂ ?_
    simp only [alike.here (.inr nonempty), Expr.span_moved, Span.moved, Expr.moved,
      frame.keeps.map_max]

private theorem unary_agrees (alike : frame.Alike c c') (room : c.left ≤ bound) :
    frame.Agrees (unary nested) (unary nested') c c' (Expr.moved frame.move) := by
  refine .get <| .ite (alike.atKind nofun) (fun atOpening => ?_)
    fun _ => signed_agrees nests alike room
  refine (cast?_agrees nests alike atOpening room).bind fun cast c₁ c₁' before₁ alike₁ => ?_
  cases cast with
  | some cast => exact .pure alike₁ rfl
  | none => exact signed_agrees nests alike₁ (Nat.le_trans before₁.left_le room)

omit nests in
private theorem instanceOf_agrees (alike : frame.Alike c c') (operand : Expr) :
    frame.Agrees (instanceOf operand) (instanceOf (operand.moved frame.move)) c c'
      (Expr.moved frame.move) := by
  refine (advance_agrees alike).bind fun _ c₁ c₁' _ alike₁ => ?_
  refine (skipWord_outruns alike₁ "final").agrees.bind fun _ c₂ c₂' _ alike₂ => ?_
  refine (typeAfter_outruns alike₂ "instanceof").agrees.bind fun type c₃ c₃' _ alike₃ => .get ?_
  -- The test ends the same way whether a name follows on the type or not.
  have finish {c₄ c₄' : Cursor} (alike₄ : frame.Alike c₄ c₄') :
      frame.Agrees
        (do
          let after ← get
          return Expr.instanceOf operand type
            ⟨operand.span.start, max after.lastEnd type.span.stop⟩)
        (do
          let after ← get
          return Expr.instanceOf (operand.moved frame.move) (type.moved frame.move)
            ⟨(operand.moved frame.move).span.start,
              max after.lastEnd (type.moved frame.move).span.stop⟩)
        c₄ c₄' (Expr.moved frame.move) := by
    refine .get (.pure alike₄ ?_)
    simp only [Expr.span_moved, TypeRef.moved, Span.moved, Expr.moved, alike₄.lastEnd]
  refine .ite (congrArg₂ and (alike₃.atKind (by decide)) (congrArg not (alike₃.atWord _)))
    (fun _ => ?_) fun _ => finish alike₃
  exact (advance_agrees alike₃).bind fun _ c₄ c₄' _ alike₄ => finish alike₄

private theorem binaryStep_agrees (alike : frame.Alike c c') (room : c.left ≤ bound) (minimum : Nat)
    (left : Expr) :
    frame.Agrees (binaryStep nested minimum left)
      (binaryStep nested' minimum (left.moved frame.move)) c c'
      (Option.map (Expr.moved frame.move)) := by
  refine .get <| .ite (alike.atWord _) (fun _ => .branch (fun _ => .pure alike rfl) fun _ => ?_)
    fun _ => ?_
  · exact (instanceOf_agrees alike left).bind fun expr c₁ c₁' _ alike₁ => .pure alike₁ rfl
  · rw [alike.bind_kind? rfl]
    cases known : c.kind?.bind TokenKind.binaryOp? with
    | none => exact .pure alike rfl
    | some op =>
      obtain ⟨token, rest, found⟩ := exists_of_kind? known
      refine .branch (fun _ => .pure alike rfl) fun _ => ?_
      refine Agrees.advance alike (found ▸ List.cons_ne_nil _ _) fun fewer alike₁ => ?_
      refine (nests.agrees (.binary _) _ _ alike₁ (Nat.lt_of_lt_of_le fewer room)).bind
        fun right c₂ c₂' _ alike₂ => .pure alike₂ ?_
      simp only [Expr.span_moved, cover_moved frame.keeps, Option.map_some, Expr.moved]

private theorem binary_agrees (alike : frame.Alike c c') (room : c.left ≤ bound) (minimum : Nat) :
    frame.Agrees (binary nested minimum) (binary nested' minimum) c c'
      (Expr.moved frame.move) :=
  (unary_agrees nests alike room).bind fun first _ _ before₁ alike₁ =>
    Agrees.iterate (binaryStep_winds nests.moves minimum)
      (binaryStep_winds nests.moves' minimum) (binaryStep_moves nests.moves' minimum) alike₁
      (fun left _ _ before₂ alike₂ => binaryStep_agrees nests alike₂
        (Nat.le_trans (before₁.trans before₂).left_le room) minimum left) first

private theorem conditional_agrees (alike : frame.Alike c c') (room : c.left ≤ bound) :
    frame.Agrees (conditional nested) (conditional nested') c c' (Expr.moved frame.move) := by
  refine (binary_agrees nests alike room 0).bind fun condition c₁ c₁' before₁ alike₁ => .get ?_
  refine .ite (alike₁.atKind nofun) (fun atQuestion => ?_) fun _ => .pure alike₁ rfl
  refine Agrees.advance alike₁ (rest_ne_nil atQuestion) fun fewer alike₂ => ?_
  -- Every part starts behind a token that was read, so the nested readers agree on it.
  have room₂ := Nat.lt_of_lt_of_le fewer (Nat.le_trans before₁.left_le room)
  refine (nests.agrees .assignment _ _ alike₂ room₂).bind fun whenTrue c₃ c₃' before₃ alike₃ => ?_
  refine Agrees.bind (expect_agrees alike₃ .colon).discard fun _ c₄ c₄' before₄ alike₄ => ?_
  have room₄ := Nat.lt_of_le_of_lt (before₃.trans before₄).left_le room₂
  refine (nests.agrees .conditional _ _ alike₄ room₄).bind fun whenFalse c₅ c₅' _ alike₅ =>
    .pure alike₅ ?_
  simp only [Expr.span_moved, cover_moved frame.keeps, Expr.moved]

private theorem assignment_agrees (alike : frame.Alike c c') (room : c.left ≤ bound) :
    frame.Agrees (assignment nested) (assignment nested') c c' (Expr.moved frame.move) := by
  refine (lambda?_agrees nests alike room).bind fun lambda c₁ c₁' before₁ alike₁ => ?_
  cases lambda with
  | some lambda => exact .pure alike₁ rfl
  | none =>
    have room₁ := Nat.le_trans before₁.left_le room
    refine (conditional_agrees nests alike₁ room₁).bind fun target c₂ c₂' before₂ alike₂ =>
      .get <| .ite (alike₂.atKind nofun) (fun atAssign => ?_) fun _ => .pure alike₂ rfl
    refine Agrees.advance alike₂ (rest_ne_nil atAssign) fun fewer alike₃ => ?_
    have room₃ := Nat.lt_of_lt_of_le fewer (Nat.le_trans before₂.left_le room₁)
    refine (nests.agrees .assignment _ _ alike₃ room₃).bind fun value c₄ c₄' _ alike₄ =>
      .pure alike₄ ?_
    simp only [Expr.span_moved, cover_moved frame.keeps, Expr.moved]

/-- What nests less than it reads agrees, so all of it does. -/
theorem ofForm_agrees (alike : frame.Alike c c') (room : c.left ≤ bound) (form : Form) :
    frame.Agrees (ofForm nested form) (ofForm nested' form) c c' (Expr.moved frame.move) := by
  cases form with
  | assignment => exact assignment_agrees nests alike room
  | conditional => exact conditional_agrees nests alike room
  | binary minimum => exact binary_agrees nests alike room minimum
  | unary => exact unary_agrees nests alike room

end Forms

theorem expr_agrees (alike : frame.Alike c c') :
    frame.Agrees expr expr c c' (Expr.moved frame.move) :=
  .get <| Agreeing.enough exprWithin exprWithin_moves
    (fun _ _ nests form _ _ alike room => ofForm_agrees nests alike room form) alike .assignment

end Parser
end MethodContracts.Source
