import MethodContracts.Proofs.Source.TwoRuns

/-!
# Names, types and annotations in two runs

These readers are used to look ahead: a cast or a local variable is tried, and what was read is
given up if there is none. So it matters where the second run stands when the first one has
come to its end: behind the tokens of the first run, too.
-/
namespace MethodContracts.Source
namespace Parser

open Cursor Source.Frame

variable {frame : Frame} {c c' : Cursor}

/-! ## Single tokens -/

theorem advance_outruns (alike : frame.Alike c c') : frame.Outruns advance advance c c' id :=
  .inside alike c.before_next c'.before_next fun inside =>
    ⟨c.before_next, .inl ⟨rfl, alike.next inside⟩⟩

theorem advance?_outruns (alike : frame.Alike c c') :
    frame.Outruns advance? advance? c c' (Option.map (Token.moved frame.move)) := by
  refine .inside alike c.before_next c'.before_next fun inside =>
    ⟨c.before_next, .inl ⟨?_, alike.next inside⟩⟩
  unfold advance?
  cases found : c.rest with
  | nil => rw [alike.rest_nil inside found]; rfl
  | cons token rest => rw [alike.rest_cons found]; rfl

theorem report_outruns (alike : frame.Alike c c') (wanted : Wanted) :
    frame.Outruns (report wanted) (report wanted) c c' id :=
  .inside alike (c.before_report wanted) (c'.before_report wanted) fun inside =>
    ⟨c.before_report wanted, .inl ⟨rfl, alike.report inside wanted⟩⟩

/-- Where a token stands both runs see whether it is of the kind. -/
theorem expectAs_inside {lost : Cursor → Cursor → Prop} (alike : frame.Alike c c')
    (inside : frame.Inside c) (kind : TokenKind) (wanted : Wanted) :
    frame.Follows lost (expectAs kind wanted) (expectAs kind wanted) c c'
      (Token.moved frame.move) := by
  refine ⟨expectAs_moves kind wanted c, .inl ?_⟩
  have placed : (⟨kind, "", .point c'.here⟩ : Token) =
      Token.moved frame.move ⟨kind, "", .point c.here⟩ := by
    rw [alike.here inside]
    rfl
  have reported := alike.report inside wanted
  have read := alike.next inside
  unfold expectAs
  -- The two readers are at the same token, or both at the end with an error reported.
  cases found : c.rest with
  | nil =>
    rw [alike.rest_nil inside found]
    exact ⟨placed, reported⟩
  | cons token rest =>
    rw [alike.rest_cons found]
    have sameKind : (token.moved frame.move).kind = token.kind := rfl
    by_cases isKind : token.kind = kind
    · simp only [sameKind, if_pos isKind]
      exact ⟨trivial, read⟩
    · simp only [sameKind, if_neg isKind]
      exact ⟨placed, reported⟩

private theorem expectAs_outruns (alike : frame.Alike c c') (kind : TokenKind) (wanted : Wanted) :
    frame.Outruns (expectAs kind wanted) (expectAs kind wanted) c c' (Token.moved frame.move) :=
  .inside alike (expectAs_moves kind wanted c) (expectAs_moves kind wanted c') fun inside =>
    expectAs_inside alike inside kind wanted

theorem expect_outruns (alike : frame.Alike c c') (kind : TokenKind) :
    frame.Outruns (expect kind) (expect kind) c c' (Token.moved frame.move) :=
  expectAs_outruns alike kind (.token kind)

theorem skip_outruns (alike : frame.Alike c c') (kind : TokenKind) :
    frame.Outruns (skip kind) (skip kind) c c' id := by
  have before := skip_moves kind c
  refine .inside alike before (skip_moves kind c') fun inside => ⟨before, .inl ⟨rfl, ?_⟩⟩
  unfold skip
  rw [alike.atKind_inside inside]
  split
  · exact alike.next inside
  · exact alike

theorem skipWord_outruns (alike : frame.Alike c c') (word : String) :
    frame.Outruns (skipWord word) (skipWord word) c c' id := by
  have before := skipWord_moves word c
  refine .inside alike before (skipWord_moves word c') fun inside => ⟨before, .inl ⟨rfl, ?_⟩⟩
  unfold skipWord
  rw [alike.atWord]
  split
  · exact alike.next inside
  · exact alike

/-! ## Names and types -/

private theorem dottedStep_outruns (alike : frame.Alike c c') (name : NameText) :
    frame.Outruns (dottedStep name) (dottedStep (name.moved frame.move)) c c'
      (Option.map (NameText.moved frame.move)) := by
  refine .get <| .ite (congrArg₂ and (alike.atKind nofun) (alike.atNth 1 nofun))
    (fun _ => ?_) fun _ => .pure alike rfl
  refine (advance_outruns alike).bind (fun _ c₁ c₁' _ alike₁ => ?_) fun _ =>
    (expect_moves _).bind fun _ => .pure _
  exact (expect_outruns alike₁ .ident).bind (fun part c₂ c₂' _ alike₂ => .pure alike₂ rfl)
    fun _ => .pure _

private theorem qualifiedName_outruns (alike : frame.Alike c c') :
    frame.Outruns qualifiedName qualifiedName c c' (Prod.map id (Span.moved frame.move)) := by
  refine (expect_outruns alike .ident).bind (fun first c₁ c₁' _ alike₁ => ?_) fun _ =>
    (iterate_moves dottedStep_moves _).bind fun _ => .pure _
  exact (Outruns.iterate dottedStep_winds dottedStep_moves alike₁
    (fun name c₂ c₂' _ alike₂ => dottedStep_outruns alike₂ name) ⟨first.text, first.span.stop⟩).bind
    (fun name c₂ c₂' _ alike₂ => .pure alike₂ rfl) fun _ => .pure _

private theorem bracketsStep_outruns (alike : frame.Alike c c') (type : NameText) :
    frame.Outruns (bracketsStep type) (bracketsStep (type.moved frame.move)) c c'
      (Option.map (NameText.moved frame.move)) := by
  refine .get <| .ite (congrArg₂ and (alike.atKind nofun) (alike.atNth 1 nofun))
    (fun _ => ?_) fun _ => .pure alike rfl
  refine (advance_outruns alike).bind (fun _ c₁ c₁' _ alike₁ => ?_) fun _ =>
    (expect_moves _).bind fun _ => .pure _
  exact (expect_outruns alike₁ .closeBracket).bind (fun close c₂ c₂' _ alike₂ => .pure alike₂ rfl)
    fun _ => .pure _

private theorem groupTextStep_outruns (alike : frame.Alike c c') (opening closing : TokenKind)
    (group : GroupText) :
    frame.Outruns (groupTextStep opening closing group)
      (groupTextStep opening closing (group.moved frame.move)) c c'
      (Option.map (GroupText.moved frame.move)) := by
  refine .ite rfl (fun _ => .pure alike rfl) fun _ =>
    (advance?_outruns alike).bind (fun token c₁ c₁' _ alike₁ => ?_) fun token => ?_
  · cases token <;> exact .pure alike₁ rfl
  · cases token <;> exact .pure _

private theorem groupText_outruns (alike : frame.Alike c c') (opening closing : TokenKind) :
    frame.Outruns (groupText opening closing) (groupText opening closing) c c'
      (Prod.map id frame.move) := by
  refine .inside alike (groupText_moves opening closing c) (groupText_moves opening closing c')
    fun inside => .get ?_
  have first : (⟨0, "", c'.here, false⟩ : GroupText) =
      GroupText.moved frame.move ⟨0, "", c.here, false⟩ := by
    rw [alike.here inside]
    rfl
  rw [first]
  exact (Outruns.iterate (groupTextStep_winds opening closing) (groupTextStep_moves opening closing)
    alike (fun group c₁ c₁' _ alike₁ => groupTextStep_outruns alike₁ opening closing group) _).bind
    (fun group c₁ c₁' _ alike₁ => .pure alike₁ rfl) fun _ => .pure _

theorem typeRef?_outruns (alike : frame.Alike c c') :
    frame.Outruns typeRef? typeRef? c c' (Option.map (TypeRef.moved frame.move)) := by
  refine .get <| .ite (alike.atKind nofun) (fun _ => ?_) fun _ => .pure alike rfl
  -- The brackets behind the type are read alike with and without its parameters.
  have finishMoves (start : Nat) (generic : NameText) : Moves (do
      let type ← iterate bracketsStep generic
      return some (⟨type.text, ⟨start, type.stop⟩⟩ : TypeRef)) :=
    (iterate_moves bracketsStep_moves generic).bind fun _ => .pure _
  refine (qualifiedName_outruns alike).bind (fun name c₁ c₁' _ alike₁ => .get ?_) fun name =>
    Moves.get.bind fun _ => .ite
      ((groupText_moves _ _).bind fun _ => (Moves.pure _).bind (finishMoves _))
      ((Moves.pure _).bind (finishMoves _))
  have finish {c₂ c₂' : Cursor} (alike₂ : frame.Alike c₂ c₂') (generic : NameText) :
      frame.Outruns
        (do
          let type ← iterate bracketsStep generic
          return some (⟨type.text, ⟨name.2.start, type.stop⟩⟩ : TypeRef))
        (do
          let type ← iterate bracketsStep (generic.moved frame.move)
          return some (⟨type.text, ⟨frame.move name.2.start, type.stop⟩⟩ : TypeRef))
        c₂ c₂' (Option.map (TypeRef.moved frame.move)) :=
    (Outruns.iterate bracketsStep_winds bracketsStep_moves alike₂
      (fun type c₃ c₃' _ alike₃ => bracketsStep_outruns alike₃ type) generic).bind
      (fun type c₃ c₃' _ alike₃ => .pure alike₃ rfl) fun _ => .pure _
  refine .ite (alike₁.atKind nofun) (fun _ => ?_) fun _ => .pure_bind (finish alike₁ _)
  exact (groupText_outruns alike₁ .less .greater).bind
    (fun generic c₂ c₂' _ alike₂ => .pure_bind (finish alike₂ ⟨name.1 ++ generic.1, generic.2⟩))
    fun _ => (Moves.pure _).bind (finishMoves _)

theorem typeAfter_outruns (alike : frame.Alike c c') (keyword : String) :
    frame.Outruns (typeAfter keyword) (typeAfter keyword) c c' (TypeRef.moved frame.move) := by
  have missing : Moves (do
      report (.typeAfter keyword)
      return (⟨"", .point (← get).here⟩ : TypeRef)) :=
    (report_moves _).bind fun _ => Moves.get.bind fun _ => .pure _
  refine (typeRef?_outruns alike).bind (fun type c₁ c₁' _ alike₁ => ?_) fun type => ?_
  · cases type with
    | some type => exact .pure alike₁ rfl
    | none =>
      -- No type: the error is reported at the place where the readers stand.
      refine .inside alike₁ (missing c₁) (missing c₁') fun inside => ?_
      have placed : (⟨"", .point c₁'.here⟩ : TypeRef) = TypeRef.moved frame.move
          ⟨"", .point c₁.here⟩ := by
        rw [alike₁.here inside]
        rfl
      exact ⟨missing c₁, .inl ⟨placed, alike₁.report inside _⟩⟩
  · cases type with
    | none => exact missing
    | some type => exact .pure type

/-! ## Annotations -/

private theorem valueStep_outruns (alike : frame.Alike c c') (value : ValueText) :
    frame.Outruns (valueStep value) (valueStep value) c c' (Option.map id) := by
  refine .inside alike (valueStep_moves value c) (valueStep_moves value c') fun inside => .get ?_
  cases found : c.rest with
  | nil =>
    rw [alike.rest_nil inside found]
    exact .pure alike rfl
  | cons token rest =>
    rw [alike.rest_cons found]
    exact .branch (fun _ => .pure alike rfl) fun _ =>
      (advance_outruns alike).bind (fun _ c₁ c₁' _ alike₁ => .pure alike₁ rfl) fun _ => .pure _

private theorem annotationValue_outruns (alike : frame.Alike c c') :
    frame.Outruns annotationValue annotationValue c c' id := by
  have same : (c'.atKind .string && (c'.atNth 1 .comma || c'.atNth 1 .closeParen)) =
      (c.atKind .string && (c.atNth 1 .comma || c.atNth 1 .closeParen)) :=
    congrArg₂ and (alike.atKind nofun) (congrArg₂ or (alike.atNth 1 nofun) (alike.atNth 1 nofun))
  refine .get <| .ite same (fun _ => ?_) fun _ => ?_
  · exact (expect_outruns alike .string).bind (fun token c₁ c₁' _ alike₁ => .pure alike₁ rfl)
      fun _ => .pure _
  · exact (Outruns.iterate valueStep_winds valueStep_moves alike
      (fun value c₁ c₁' _ alike₁ => valueStep_outruns alike₁ value) ⟨[], 0⟩).bind
      (fun value c₁ c₁' _ alike₁ => .pure alike₁ rfl) fun _ => .pure _

private theorem argumentName_outruns (alike : frame.Alike c c') :
    frame.Outruns argumentName argumentName c c' id := by
  refine .get <| .ite (congrArg₂ and (alike.atKind nofun) (alike.atNth 1 nofun)) (fun _ => ?_)
    fun _ => .pure alike rfl
  refine (expect_outruns alike .ident).bind (fun name c₁ c₁' _ alike₁ => ?_) fun _ =>
    advance_moves.bind fun _ => .pure _
  exact (advance_outruns alike₁).bind (fun _ c₂ c₂' _ alike₂ => .pure alike₂ rfl) fun _ => .pure _

private theorem annotationArgument_outruns (alike : frame.Alike c c') :
    frame.Outruns annotationArgument annotationArgument c c'
      (AnnotationArgument.moved frame.move) := by
  refine .inside alike (annotationArgument_moves c) (annotationArgument_moves c') fun inside => ?_
  refine .get ((argumentName_outruns alike).bind (fun name c₁ c₁' _ alike₁ => ?_) fun _ =>
    annotationValue_moves.bind fun _ => Moves.get.bind fun _ => .pure _)
  refine (annotationValue_outruns alike₁).bind (fun value c₂ c₂' _ alike₂ => .get (.pure alike₂ ?_))
    fun _ => Moves.get.bind fun _ => .pure _
  rw [alike.here inside, alike₂.since]
  rfl

private theorem annotationArgumentStep_outruns (alike : frame.Alike c c') :
    frame.Outruns annotationArgumentStep annotationArgumentStep c c'
      (Option.map (List.map (AnnotationArgument.moved frame.move))) := by
  refine .inside alike (annotationArgumentStep_moves c) (annotationArgumentStep_moves c')
    fun inside => .get <| .ite
      (congrArg₂ or (alike.atEnd inside) (alike.atKind_inside inside _))
      (fun _ => .pure alike rfl) fun _ => ?_
  refine (annotationArgument_outruns alike).bind (fun argument c₁ c₁' _ alike₁ => ?_) fun _ =>
    (skip_moves _).bind fun _ => .pure _
  exact (skip_outruns alike₁ .comma).bind (fun _ c₂ c₂' _ alike₂ => .pure alike₂ rfl) fun _ =>
    .pure _

theorem annotation_outruns (alike : frame.Alike c c') :
    frame.Outruns annotation annotation c c' (·.moved frame.move) := by
  have argumentsMoves (name : String) (start stop : Nat) : Moves (do
      let arguments ← collect annotationArgumentStep
      let close ← expect .closeParen
      return (⟨name, arguments, ⟨start, max close.span.stop stop⟩⟩ : Annotation)) :=
    (collect_moves annotationArgumentStep_moves).bind fun _ => (expect_moves _).bind fun _ =>
      .pure _
  refine (expect_outruns alike .atSign).bind (fun sign c₁ c₁' _ alike₁ => ?_) fun _ =>
    qualifiedName_moves.bind fun _ => Moves.get.bind fun _ => .ite
      (advance_moves.bind fun _ => argumentsMoves _ _ _) (.pure _)
  refine (qualifiedName_outruns alike₁).bind (fun name c₂ c₂' _ alike₂ => .get ?_) fun _ =>
    Moves.get.bind fun _ => .ite (advance_moves.bind fun _ => argumentsMoves _ _ _) (.pure _)
  refine .ite (alike₂.atKind nofun) (fun _ => ?_) fun _ => .pure alike₂ rfl
  refine (advance_outruns alike₂).bind (fun _ c₃ c₃' _ alike₃ => ?_) fun _ => argumentsMoves _ _ _
  refine (Outruns.collect annotationArgumentStep_winds annotationArgumentStep_moves alike₃
    fun c₄ c₄' _ alike₄ => annotationArgumentStep_outruns alike₄).bind
      (fun arguments c₄ c₄' _ alike₄ => ?_) fun _ => (expect_moves _).bind fun _ => .pure _
  refine (expect_outruns alike₄ .closeParen).bind (fun close c₅ c₅' _ alike₅ => .pure alike₅ ?_)
    fun _ => .pure _
  -- The end is the later of two places, and moving keeps their order.
  simp only [Span.moved, Annotation.moved, Token.moved, frame.keeps.map_max]
  rfl

private theorem variableModifierStep_outruns (alike : frame.Alike c c') (value : Unit) :
    frame.Outruns (variableModifierStep value) (variableModifierStep value) c c'
      (Option.map id) := by
  refine .get <| .ite (alike.atKind nofun) (fun _ => ?_) fun _ => .ite (alike.atWord _)
    (fun _ => ?_) fun _ => .pure alike rfl
  · exact Outruns.bind (annotation_outruns alike).discard
      (fun _ _ _ _ alike₁ => .pure alike₁ rfl) fun _ => .pure _
  · exact (advance_outruns alike).bind (fun _ _ _ _ alike₁ => .pure alike₁ rfl) fun _ => .pure _

theorem variableModifiers_outruns (alike : frame.Alike c c') :
    frame.Outruns variableModifiers variableModifiers c c' id :=
  Outruns.iterate variableModifierStep_winds variableModifierStep_moves alike
    (fun value _ _ _ alike₁ => variableModifierStep_outruns alike₁ value) ()

end Parser
end MethodContracts.Source
