import MethodContracts.Proofs.Source.StatementRuns

/-!
# Declarations in two runs

Where no type is declared its reader goes back to where it began, with the errors that it
found. So what is said of types and units is said of runs that see the same tokens to the end;
methods are also read alike in front of a closing brace.
-/
namespace MethodContracts.Source

open Source.Frame

variable {frame : Frame} {c c' : Cursor}

namespace Frame.Alike

theorem atAnnotationType (alike : frame.Alike c c') :
    c'.atAnnotationType = c.atAnnotationType :=
  congrArg₂ and (alike.atKind nofun) (alike.nthWord 1 _)

theorem atModifier (alike : frame.Alike c c') : c'.atModifier = c.atModifier :=
  congrArg₂ and (alike.atKind nofun) (congrArg modifiers.contains alike.word)

theorem atNonSealed (alike : frame.Alike c c') : c'.atNonSealed = c.atNonSealed :=
  congrArg₂ and (congrArg₂ and (alike.atWord _) (alike.atNth 1 nofun)) (alike.nthWord 2 _)

theorem atStaticBlock (alike : frame.Alike c c') : c'.atStaticBlock = c.atStaticBlock :=
  congrArg₂ and (alike.atWord _) (alike.atNth 1 nofun)

end Frame.Alike

namespace Parser

open Cursor Source.Frame

/-! ## Modifiers -/

private theorem modifierStep_agrees (alike : frame.Alike c c') :
    frame.Agrees modifierStep modifierStep c c'
      (Option.map (List.map (·.moved frame.move))) := by
  refine .get <| .ite (alike.atKind nofun) (fun _ => .ite alike.atAnnotationType
    (fun _ => .pure alike rfl) fun _ => ?_) fun _ => .ite alike.atModifier (fun _ =>
      .ite alike.atNonSealed (fun _ => ?_) fun _ => .ite alike.atStaticBlock
        (fun _ => .pure alike rfl) fun _ => ?_) fun _ => .pure alike rfl
  · exact (annotation_outruns alike).agrees.bind fun note c₁ c₁' _ alike₁ => .pure alike₁ rfl
  · exact (advanceBy_agrees alike 3).bind fun _ c₁ c₁' _ alike₁ => .pure alike₁ rfl
  · exact (advance_agrees alike).bind fun _ c₁ c₁' _ alike₁ => .pure alike₁ rfl

theorem modifiersAndAnnotations_agrees (alike : frame.Alike c c') :
    frame.Agrees modifiersAndAnnotations modifiersAndAnnotations c c'
      (List.map (·.moved frame.move)) :=
  Agrees.collect modifierStep_winds modifierStep_winds modifierStep_moves alike
    fun _ _ _ alike₁ => modifierStep_agrees alike₁

/-! ## Parameters and bodies -/

private theorem paramStep_agrees (alike : frame.Alike c c') :
    frame.Agrees paramStep paramStep c c'
      (Option.map (List.map (ParamDecl.moved frame.move))) := by
  refine .inside (paramStep_moves c) fun inside => .get <| .ite
    (congrArg₂ or (alike.atEnd inside) (alike.atKind_inside inside _))
    (fun _ => .pure alike rfl) fun _ => ?_
  refine (variableModifiers_outruns alike).agrees.bind fun _ c₁ c₁' _ alike₁ => ?_
  refine (typeRef?_outruns alike₁).agrees.bind fun type c₂ c₂' _ alike₂ => ?_
  cases type with
  | none =>
    refine (report_outruns alike₂ .parameter).agrees.bind fun _ c₃ c₃' _ alike₃ => ?_
    refine (advance_agrees alike₃).bind fun _ c₄ c₄' _ alike₄ => ?_
    exact (skip_outruns alike₄ .comma).agrees.bind fun _ c₅ c₅' _ alike₅ => .pure alike₅ rfl
  | some type =>
    -- The name follows on the type, or on the dots behind it.
    have finish (type : TypeRef) {c₃ c₃' : Cursor} (alike₃ : frame.Alike c₃ c₃') :
        frame.Agrees
          (do
            let name ← expect .ident
            skip .comma
            return some [(⟨type, name.text, name.span, ⟨type.span.start, name.span.stop⟩⟩ :
              ParamDecl)])
          (do
            let name ← expect .ident
            skip .comma
            return some [(⟨type.moved frame.move, name.text, name.span,
              ⟨frame.move type.span.start, name.span.stop⟩⟩ : ParamDecl)])
          c₃ c₃' (Option.map (List.map (ParamDecl.moved frame.move))) := by
      refine (expect_agrees alike₃ .ident).bind fun name c₄ c₄' _ alike₄ => ?_
      exact (skip_outruns alike₄ .comma).agrees.bind fun _ c₅ c₅' _ alike₅ => .pure alike₅ rfl
    refine .get <| .ite (alike₂.atKind nofun) (fun atEllipsis => ?_)
      fun _ => .pure_bind (finish type alike₂)
    rw [alike₂.place (.inr (rest_ne_nil atEllipsis))]
    exact (advance_agrees alike₂).bind fun _ c₃ c₃' _ alike₃ => .pure_bind (finish _ alike₃)

/-- In front of something that is wanted, the end of the tokens is noticed. -/
private theorem expect_atEnd_errors (past : frame.Past c) (kind : TokenKind) :
    (expect kind c).2.errors ≠ [] := by
  rw [expect, expectAs_atEnd past.2]
  exact c.errors_report _

private theorem paramList_notices (alike : frame.Alike c c') :
    frame.Notices paramList paramList c c' (List.map (ParamDecl.moved frame.move)) := by
  refine Notices.bind (Follows.discard (expect_notices alike .openParen))
    fun _ c₁ c₁' _ alike₁ => ?_
  refine Notices.after (Agrees.collect paramStep_winds paramStep_winds paramStep_moves alike₁
    fun c₂ c₂' _ alike₂ => paramStep_agrees alike₂) (fun params c₂ c₂' _ alike₂ => ?_)
    fun params c₂ past => expect_atEnd_errors past .closeParen
  exact Notices.bind (Follows.discard (expect_notices alike₂ .closeParen))
    fun _ c₃ c₃' _ alike₃ => .pure alike₃ rfl

private theorem throwsClause_agrees (alike : frame.Alike c c') :
    frame.Agrees throwsClause throwsClause c c' id := by
  refine .get <| .ite (alike.atWord _) (fun _ => ?_) fun _ => .pure alike rfl
  refine (advance_agrees alike).bind fun _ c₁ c₁' _ alike₁ =>
    skipWhile_agrees alike₁ fun d d' alike inside => ?_
  rw [alike.atKind_inside inside, alike.atKind_inside inside]

private theorem defaultValue_agrees (alike : frame.Alike c c') :
    frame.Agrees defaultValue defaultValue c c' id := by
  refine .get <| .ite (alike.atWord _) (fun _ => ?_) fun _ => .pure alike rfl
  refine skipWhile_agrees alike fun d d' alike inside => ?_
  rw [alike.atKind_inside inside]

private theorem methodBody_notices (alike : frame.Alike c c') :
    frame.Notices methodBody methodBody c c' (Option.map (Block.moved frame.move)) := by
  refine .get <| .ite (alike.atKind nofun) (fun _ => (block_notices alike).map fun _ => rfl)
    fun _ => ?_
  exact Notices.bind (Follows.discard (expectAs_notices alike .semicolon .semicolonOrBody))
    fun _ c₁ c₁' _ alike₁ => .pure alike₁ rfl

/-- At the end of the tokens there is neither a body nor a semicolon. -/
private theorem methodBody_atEnd (atEnd : c.rest = []) :
    (methodBody c).2 = c.report .semicolonOrBody := by
  rw [methodBody, run_bind, run_get, if_neg (by simp [atKind_atEnd atEnd])]
  exact expectAs_atEnd atEnd _ _

private theorem defaultValue_atEnd (atEnd : c.rest = []) : defaultValue c = ((), c) := by
  rw [defaultValue, run_bind, run_get, if_neg (by simp [atWord_atEnd atEnd]), run_pure]

private theorem methodRest_notices (alike : frame.Alike c c') (start : Nat)
    (notes : List Annotation) (type : TypeRef) (name : Token) :
    frame.Notices (methodRest start notes type name)
      (methodRest (frame.move start) (notes.map (·.moved frame.move))
        (type.moved frame.move) (name.moved frame.move)) c c' (Member.moved frame.move) := by
  refine (paramList_notices alike).bind fun params c₁ c₁' _ alike₁ => ?_
  -- Whatever is behind the parameters, a body or a semicolon has to follow.
  have finish {c₂ c₂' : Cursor} (alike₂ : frame.Alike c₂ c₂') : frame.Notices
      (do
        let body ← methodBody
        return Member.method ⟨notes, type, name.text, name.span, params, body,
          (← get).since start⟩)
      (do
        let body ← methodBody
        return Member.method ⟨notes.map (·.moved frame.move), type.moved frame.move,
          name.text, name.span.moved frame.move, params.map (ParamDecl.moved frame.move), body,
          (← get).since (frame.move start)⟩)
      c₂ c₂' (Member.moved frame.move) := by
    refine (methodBody_notices alike₂).bind fun body c₃ c₃' _ alike₃ => .get (.pure alike₃ ?_)
    rw [alike₃.since]
    rfl
  have reports (c₂ : Cursor) (past : frame.Past c₂) : (methodBody c₂).2.errors ≠ [] := by
    rw [methodBody_atEnd past.2]
    exact c₂.errors_report _
  refine Notices.after (throwsClause_agrees alike₁) (fun _ c₂ c₂' _ alike₂ => ?_)
    fun _ c₂ past => ?_
  · exact Notices.after (defaultValue_agrees alike₂) (fun _ c₃ c₃' _ alike₃ => finish alike₃)
      fun _ c₃ past => reports c₃ past
  · -- At the end of the tokens there is no default value, and the body is missed.
    rw [run_bind, defaultValue_atEnd past.2]
    exact reports c₂ past

private theorem constructorRest_agrees (alike : frame.Alike c c') (start : Nat) :
    frame.Agrees (constructorRest start) (constructorRest (frame.move start)) c c'
      (Member.moved frame.move) := by
  refine (expect_agrees alike .ident).bind fun name c₁ c₁' _ alike₁ => ?_
  refine (paramList_notices alike₁).agrees.bind fun params c₂ c₂' _ alike₂ => ?_
  refine (throwsClause_agrees alike₂).bind fun _ c₃ c₃' _ alike₃ => ?_
  exact (block_notices alike₃).agrees.bind fun body c₄ c₄' _ alike₄ => .pure alike₄ rfl

private theorem initializerRest_agrees (alike : frame.Alike c c') (start : Nat) (isStatic : Bool) :
    frame.Agrees (initializerRest start isStatic) (initializerRest (frame.move start) isStatic)
      c c' (Member.moved frame.move) :=
  (block_notices alike).agrees.bind fun _ _ _ _ alike₁ => .pure alike₁ rfl

private theorem fieldStep_agrees (alike : frame.Alike c c') (value : Unit) :
    frame.Agrees (fieldStep value) (fieldStep value) c c' (Option.map id) := by
  refine .inside (fieldStep_moves value c) fun inside => .get <| .ite
    (congrArg₂ or (alike.atEnd inside) (alike.atKind_inside inside _))
    (fun _ => .pure alike rfl) fun _ => .ite (alike.atKind nofun) (fun _ => ?_) fun _ => ?_
  · exact (skipBody_agrees alike).bind fun _ c₁ c₁' _ alike₁ => .pure alike₁ rfl
  · exact (advance_agrees alike).bind fun _ c₁ c₁' _ alike₁ => .pure alike₁ rfl

private theorem fieldRest_notices (alike : frame.Alike c c') (start : Nat) (type : TypeRef)
    (name : Token) :
    frame.Notices (fieldRest start type name)
      (fieldRest (frame.move start) (type.moved frame.move) (name.moved frame.move)) c c'
      (Member.moved frame.move) := by
  refine Notices.after (Agrees.iterate (g := id) fieldStep_winds fieldStep_winds fieldStep_moves
    alike (fun value _ _ _ alike => fieldStep_agrees alike value) ())
    (fun _ c₁ c₁' _ alike₁ => ?_) fun _ c₁ past => expect_atEnd_errors past .semicolon
  exact (expect_notices alike₁ .semicolon).bind fun closing c₂ c₂' _ alike₂ => .pure alike₂ rfl

theorem typeRef?_some (atWord : c.atKind .ident = true) : ∃ type, (typeRef? c).1 = some type := by
  have either {first second : Parser (Option TypeRef)} {generic : Bool} {d : Cursor}
      (one : ∃ type, (first d).1 = some type) (two : ∃ type, (second d).1 = some type) :
      ∃ type, ((if generic then first else second) d).1 = some type := by
    split
    · exact one
    · exact two
  rw [typeRef?, run_bind, run_get, if_pos atWord, run_bind]
  exact either ⟨_, rfl⟩ ⟨_, rfl⟩

theorem typedMember_notices (alike : frame.Alike c c') (start : Nat) (notes : List Annotation) :
    frame.Notices (typedMember start notes)
      (typedMember (frame.move start) (notes.map (·.moved frame.move))) c c'
      (Option.map (Member.moved frame.move)) := by
  -- Where a word stands a type is read, and what has to follow on it is noticed.
  by_cases atWord : c.atKind .ident = true
  · obtain ⟨type, isType⟩ := typeRef?_some atWord
    refine Follows.bind_at (typeRef?_outruns alike).agrees (fun c₁' alike₁ => ?_) fun past => ?_
    · rw [isType]
      refine (expect_notices alike₁ .ident).bind fun name c₂ c₂' _ alike₂ => .get ?_
      refine .ite (alike₂.atKind nofun) (fun _ => ?_) fun _ => ?_
      · exact (methodRest_notices alike₂ start notes type name).map fun _ => rfl
      · exact (fieldRest_notices alike₂ start type name).map fun _ => rfl
    · rw [isType]
      have reported := expect_atEnd_errors past .ident
      refine Past.noticed ⟨past.later (expect_moves _ _), reported⟩ ?_
      exact Moves.get.bind (fun _ => .ite ((methodRest_moves _ _ _ _).map _)
        ((fieldRest_moves _ _ _).map _)) _
  · -- Elsewhere both runs read nothing.
    have sameWord := alike.atKind (show TokenKind.ident ≠ .closeBrace from nofun)
    have atWord' : ¬c'.atKind .ident = true := by rwa [sameWord]
    have none₁ : typedMember start notes c = (none, c) := by
      rw [typedMember, run_bind, typeRef?_eq_none atWord]
      rfl
    have none₂ : typedMember (frame.move start) (notes.map (·.moved frame.move)) c' =
        (none, c') := by
      rw [typedMember, run_bind, typeRef?_eq_none atWord']
      rfl
    exact ⟨none₁ ▸ .refl c, .inl (by rw [none₁, none₂]; exact ⟨rfl, alike⟩)⟩

private theorem plainMember_agrees (alike : frame.Alike c c') (start : Nat)
    (notes : List Annotation) (enclosing : String) :
    frame.Agrees (plainMember start notes enclosing)
      (plainMember (frame.move start) (notes.map (·.moved frame.move)) enclosing) c c'
      (Option.map (Member.moved frame.move)) := by
  have sameNext := alike.atNth 1 (show TokenKind.openParen ≠ .closeBrace from nofun)
  refine .get ?_
  rw [alike.atWord, sameNext]
  refine .branch (fun _ => ?_) fun _ => (typedMember_notices alike start notes).agrees
  exact (constructorRest_agrees alike start).map fun _ => rfl

/-! ## Types -/

private theorem typeKind?_agrees (alike : frame.Alike c c') :
    frame.Agrees typeKind? typeKind? c c' id := by
  refine .inside (typeKind?_moves c) fun inside => .get <| .ite alike.atAnnotationType
    (fun _ => ?_) fun _ => ?_
  · exact (advanceBy_agrees alike 2).bind fun _ c₁ c₁' _ alike₁ => .pure alike₁ rfl
  · have same : (c'.rest.head?.bind fun token => typeKeyword? token.text) =
        c.rest.head?.bind fun token => typeKeyword? token.text := by
      cases found : c.rest with
      | nil => rw [alike.rest_nil inside found]
      | cons token rest => rw [alike.rest_cons found]; rfl
    rw [same]
    cases c.rest.head?.bind fun token => typeKeyword? token.text with
    | none => exact .pure alike rfl
    | some kind => exact (advance_agrees alike).bind fun _ c₁ c₁' _ alike₁ => .pure alike₁ rfl

private theorem constantStep_agrees (alike : frame.Alike c c') (value : Unit) :
    frame.Agrees (constantStep value) (constantStep value) c c' (Option.map id) := by
  -- A comma or semicolon ends the constants after it was read.
  have stops {d d' : Cursor} (alike : frame.Alike d d') : frame.Agrees
      (do
        advance
        return (none : Option Unit))
      (do
        advance
        return none) d d' (Option.map id) :=
    (advance_agrees alike).bind fun _ _ _ _ alike₁ => .pure alike₁ rfl
  refine .inside (constantStep_moves value c) fun inside => .get <| .ite (alike.atKind nofun)
    (fun _ => stops alike) fun _ => .ite (alike.atKind_inside inside _)
      (fun _ => .pure alike rfl) fun _ => ?_
  refine Agrees.bind (modifiersAndAnnotations_agrees alike).discard fun _ c₁ c₁' _ alike₁ =>
    .get <| .ite (alike₁.atKind nofun) (fun _ => ?_) fun _ => .pure alike₁ rfl
  refine (advance_agrees alike₁).bind fun _ c₂ c₂' _ alike₂ => ?_
  refine (skipCondition_agrees alike₂).bind fun _ c₃ c₃' _ alike₃ => ?_
  refine (skipBody_agrees alike₃).bind fun _ c₄ c₄' _ alike₄ => ?_
  refine .inside ?_ fun inside => .get <| .ite (alike₄.atKind nofun) (fun _ => stops alike₄)
    fun _ => .ite (alike₄.atKind_inside inside _) (fun _ => .pure alike₄ rfl) fun _ => ?_
  · exact Moves.get.bind (fun _ => .ite (advance_moves.bind fun _ => .pure _)
      (.ite (.pure _) (advance_moves.bind fun _ => .pure _))) c₄
  · exact (advance_agrees alike₄).bind fun _ c₅ c₅' _ alike₅ => .pure alike₅ rfl

private theorem enumConstants_agrees (alike : frame.Alike c c') :
    frame.Agrees enumConstants enumConstants c c' id :=
  .get <| .ite (alike.atKind nofun) (fun _ => advance_agrees alike) fun _ =>
    Agrees.iterate (g := id) constantStep_winds constantStep_winds constantStep_moves alike
      (fun value _ _ _ alike => constantStep_agrees alike value) ()

section Nesting

variable {nested nested' : String → Parser (Option Member)} {bound : Nat}
  (nests : Agreeing frame bound (Option.map (Member.moved frame.move)) nested nested')
include nests

private theorem memberStep_agrees (alike : frame.Alike c c') (room : c.left < bound)
    (typeName : String) :
    frame.Agrees (memberStep nested typeName) (memberStep nested' typeName) c c'
      (Option.map (List.map (Member.moved frame.move))) := by
  refine .inside (memberStep_moves nests.moves typeName c) fun inside => .get <| .ite
    (congrArg₂ or (alike.atEnd inside) (alike.atKind_inside inside _))
    (fun _ => .pure alike rfl) fun _ => ?_
  refine (nests.agrees typeName c c' alike room).bind fun member c₁ c₁' _ alike₁ => .get ?_
  have same : (member.map (Member.moved frame.move)).toList =
      member.toList.map (Member.moved frame.move) := by
    cases member <;> rfl
  rw [same]
  refine .ite (alike.left_beq alike₁) (fun _ => ?_) fun _ => .pure alike₁ rfl
  exact (advance_agrees alike₁).bind fun _ c₂ c₂' _ alike₂ => .pure alike₂ rfl

private theorem typeBody_agrees (alike : frame.Alike c c') (room : c.left < bound)
    (typeName : String) (isEnum : Bool) :
    frame.Agrees (typeBody nested typeName isEnum) (typeBody nested' typeName isEnum) c c'
      (Prod.map (List.map (Member.moved frame.move)) (Span.moved frame.move)) := by
  have skipped : frame.Agrees (skipWhile fun d => !d.atKind .openBrace)
      (skipWhile fun d => !d.atKind .openBrace) c c' id :=
    skipWhile_agrees alike fun d d' alike _ => congrArg not (alike.atKind nofun)
  refine skipped.bind fun _ c₁ c₁' before₁ alike₁ => ?_
  refine (expect_agrees alike₁ .openBrace).bind fun opening c₂ c₂' before₂ alike₂ => ?_
  -- Members and a closing brace follow on the constants, if there are any.
  have finish {c₃ c₃' : Cursor} (before₃ : c.Before c₃) (alike₃ : frame.Alike c₃ c₃') :
      frame.Agrees
        (do
          let members ← collect (memberStep nested typeName)
          let closing ← expect .closeBrace
          return (members, (⟨opening.span.start, closing.span.stop⟩ : Span)))
        (do
          let members ← collect (memberStep nested' typeName)
          let closing ← expect .closeBrace
          return (members, (⟨frame.move opening.span.start, closing.span.stop⟩ : Span)))
        c₃ c₃' (Prod.map (List.map (Member.moved frame.move)) (Span.moved frame.move)) := by
    refine (Agrees.collect (memberStep_winds nests.moves typeName)
      (memberStep_winds nests.moves' typeName) (memberStep_moves nests.moves' typeName) alike₃
      fun c₄ c₄' before₄ alike₄ => memberStep_agrees nests alike₄
        (Nat.lt_of_le_of_lt (before₃.trans before₄).left_le room) typeName).bind
      fun members c₄ c₄' _ alike₄ => ?_
    exact (expect_agrees alike₄ .closeBrace).bind fun closing c₅ c₅' _ alike₅ => .pure alike₅ rfl
  refine .branch (fun _ => ?_) fun _ => finish (before₁.trans before₂) alike₂
  exact (enumConstants_agrees alike₂).bind fun _ c₃ c₃' before₃ alike₃ =>
    finish ((before₁.trans before₂).trans before₃) alike₃

variable (closed : frame.tail = [])
include closed

private theorem typeDecl?_agrees (alike : frame.Alike c c') (room : c.left ≤ bound) :
    frame.Agrees (typeDecl? nested) (typeDecl? nested') c c'
      (Option.map (TypeDecl.moved frame.move)) := by
  have read : frame.Agrees (discard modifiersAndAnnotations >>= fun _ => typeKind?)
      (discard modifiersAndAnnotations >>= fun _ => typeKind?) c c' id :=
    Agrees.bind (modifiersAndAnnotations_agrees alike).discard
      fun _ _ _ _ alike₁ => typeKind?_agrees alike₁
  have before := (discard_moves modifiersAndAnnotations_moves c).trans (typeKind?_moves _)
  obtain ⟨same, alike₁⟩ := read.settled closed
  refine ⟨typeDecl?_moves nests.moves c, ?_⟩
  simp only [run_bind, id] at same alike₁
  simp only [typeDecl?, run_bind, run_get, same]
  -- Without a keyword both runs are back at the start, with the same errors.
  cases known : (typeKind? ((discard modifiersAndAnnotations : Parser Unit) c).2).1 with
  | none => exact .inl ⟨rfl, alike.rest, alike.lastEnd, alike.textEnd, alike₁.errors⟩
  | some kind =>
    -- The keyword was read, so there is room for the body.
    have takes := typeKind?_takes.left_lt known
    have fewer : (typeKind? ((discard modifiersAndAnnotations : Parser Unit) c).2).2.left < bound :=
      Nat.lt_of_lt_of_le takes (Nat.le_trans (discard_moves modifiersAndAnnotations_moves c).left_le
        room)
    refine Follows.after <| Agrees.bind (expect_agrees alike₁ .ident)
      fun name c₂ c₂' before₂ alike₂ => ?_
    refine (typeBody_agrees nests alike₂ (Nat.lt_of_le_of_lt before₂.left_le fewer) name.text
      (kind == .enumType)).bind fun body c₃ c₃' _ alike₃ => .pure alike₃ ?_
    rw [alike.here (.inl closed)]
    rfl

theorem memberOf_agrees (alike : frame.Alike c c') (room : c.left ≤ bound)
    (enclosing : String) :
    frame.Agrees (memberOf nested enclosing) (memberOf nested' enclosing) c c'
      (Option.map (Member.moved frame.move)) := by
  refine .get <| .ite (alike.atEnd (.inl closed)) (fun _ => .pure alike rfl) fun _ => ?_
  rw [alike.here (.inl closed)]
  refine (modifiersAndAnnotations_agrees alike).bind fun notes c₁ c₁' before₁ alike₁ => ?_
  refine (skipGroup_agrees alike₁ .less .greater nofun).bind
    fun _ c₂ c₂' before₂ alike₂ => .get ?_
  refine .ite alike₂.atStaticBlock (fun _ => ?_) fun _ => .ite (alike₂.atKind nofun)
    (fun _ => (initializerRest_agrees alike₂ _ _).map fun _ => rfl) fun _ => .ite ?_
      (fun _ => ?_) fun _ => plainMember_agrees alike₂ _ _ _
  · exact (advance_agrees alike₂).bind fun _ c₃ c₃' _ alike₃ =>
      (initializerRest_agrees alike₃ _ _).map fun _ => rfl
  · rw [alike₂.atAnnotationType, alike₂.word]
  · have room₂ := Nat.le_trans (before₁.trans before₂).left_le room
    refine (typeDecl?_agrees nests closed alike₂ room₂).bind fun decl c₃ c₃' _ alike₃ => ?_
    cases decl with
    | none => exact plainMember_agrees alike₃ _ _ _
    | some decl =>
      refine .pure alike₃ ?_
      simp only [Option.map_some, TypeDecl.moved, Member.moved, Member.movedAll_eq]

end Nesting

theorem member?_agrees (closed : frame.tail = []) (alike : frame.Alike c c')
    (enclosing : String) :
    frame.Agrees (member? enclosing) (member? enclosing) c c'
      (Option.map (Member.moved frame.move)) :=
  .get <| Agreeing.enough memberWithin memberWithin_moves
    (fun _ _ nests enclosing _ _ alike room => memberOf_agrees nests closed alike room enclosing)
    alike enclosing

private theorem member?_agreeing {frame : Frame} (closed : frame.tail = []) (bound : Nat) :
    Agreeing frame bound (Option.map (Member.moved frame.move)) member? member? :=
  ⟨member?_moves, member?_moves, fun enclosing _ _ alike _ =>
    member?_agrees closed alike enclosing⟩

/-! ## Compilation units -/

private theorem importStep_agrees (alike : frame.Alike c c') (value : Unit) :
    frame.Agrees (importStep value) (importStep value) c c' (Option.map id) := by
  refine .get <| .ite (congrArg₂ or (alike.atWord _) (alike.atWord _)) (fun _ => ?_)
    fun _ => .pure alike rfl
  have skipped : frame.Agrees (skipWhile fun d => !d.atKind .semicolon)
      (skipWhile fun d => !d.atKind .semicolon) c c' id :=
    skipWhile_agrees alike fun d d' alike _ => congrArg not (alike.atKind nofun)
  refine skipped.bind fun _ c₁ c₁' _ alike₁ => ?_
  exact Agrees.bind (expect_agrees alike₁ .semicolon).discard
    fun _ c₂ c₂' _ alike₂ => .pure alike₂ rfl

private theorem unitStep_agrees (closed : frame.tail = []) (alike : frame.Alike c c') :
    frame.Agrees unitStep unitStep c c' (Option.map (List.map (TypeDecl.moved frame.move))) := by
  refine .get <| .ite (alike.atEnd (.inl closed)) (fun _ => .pure alike rfl) fun _ => ?_
  refine (typeDecl?_agrees (member?_agreeing closed c.left) closed alike (Nat.le_refl _)).bind
    fun decl c₁ c₁' _ alike₁ => ?_
  cases decl with
  | some decl => exact .pure alike₁ rfl
  | none =>
    refine (report_outruns alike₁ .typeDeclaration).agrees.bind fun _ c₂ c₂' _ alike₂ => ?_
    exact (advance_agrees alike₂).bind fun _ c₃ c₃' _ alike₃ => .pure alike₃ rfl

/-- The start of a unit without tokens is the place zero, which has to stay where it is. -/
theorem compilationUnit_agrees (closed : frame.tail = []) (fixed : frame.move 0 = 0)
    (alike : frame.Alike c c') :
    frame.Agrees compilationUnit compilationUnit c c' (CompilationUnit.moved frame.move) := by
  -- Only the start of a unit is not found by a reader.
  have start : (c'.rest.head?.map (·.span.start)).getD 0 =
      frame.move ((c.rest.head?.map (·.span.start)).getD 0) := by
    cases found : c.rest with
    | nil => rw [alike.rest_nil (.inl closed) found]; exact fixed.symm
    | cons token rest => rw [alike.rest_cons found]; rfl
  refine .get ?_
  rw [start, alike.textEnd closed]
  refine (Agrees.iterate (g := id) importStep_winds importStep_winds importStep_moves alike
    (fun value _ _ _ alike => importStep_agrees alike value) ()).bind
    fun _ c₁ c₁' _ alike₁ => ?_
  exact (Agrees.collect unitStep_winds unitStep_winds unitStep_moves alike₁
    fun _ _ _ alike => unitStep_agrees closed alike).bind
    fun types c₂ c₂' _ alike₂ => .pure alike₂ rfl

end Parser
end MethodContracts.Source
