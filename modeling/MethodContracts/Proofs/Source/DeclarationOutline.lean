import MethodContracts.Proofs.Source.StatementOutline
import MethodContracts.Proofs.Source.DeclarationProgress

/-!
# Outlines of declarations

What stands before the type of a member is passed over or kept as an annotation, so a member
starts where reading started. A nested type starts at its own keyword.
-/
namespace MethodContracts.Source
namespace Parser

open Cursor Outline

variable {boundary : Nat → Prop} {c c₀ : Cursor}

/-! ## Parameters, fields and methods -/

private theorem paramStep_leads (sound : c.Sound boundary) :
    Leads boundary paramStep c
      fun params c' => c.Fits boundary ((params.getD []).map ParamDecl.outline) c' := by
  refine .get (.ite (fun _ => .pure sound (.nil (.refl sound))) fun _ => ?_)
  refine (variableModifiers_moves.passes c sound).bind fun _ c₁ step₁ _ => ?_
  refine (typeRef?_leads step₁.sound).bind fun type c₂ step₂ read => ?_
  cases read with
  | none =>
    refine ((report_moves _).passes c₁ step₁.sound).bind fun _ c₂ step₂ _ => ?_
    refine (advance_moves.passes c₂ step₂.sound).bind fun _ c₃ step₃ _ => ?_
    have skipped := (skip_moves .comma).passes c₃ step₃.sound
    refine skipped.bind fun _ c₄ step₄ _ => .pure step₄.sound (.nil ?_)
    exact step₁.trans (step₂.trans (step₃.trans step₄))
  | some type isType =>
    -- What follows the type is read alike with and without the three dots; with them the outline
    -- of the type has grown.
    have finish (type : TypeRef) (c₃ : Cursor) (isType : c₁.Spans boundary type.outline c₃) :
        Leads boundary (do
          let name ← expect .ident
          skip .comma
          return some [(⟨type, name.text, name.span,
            ⟨type.span.start, name.span.stop⟩⟩ : ParamDecl)]) c₃ fun params c' =>
              c.Fits boundary ((params.getD []).map ParamDecl.outline) c' := by
      refine (expect_leads isType.sound).bind fun name c₄ step₄ isName => ?_
      refine ((skip_moves _).passes c₄ step₄.sound).bind fun _ c₅ step₅ _ => .pure step₅.sound ?_
      have start : type.span.start = c₁.here := isType.start
      have param := (isType.fits.append isName.fits).upTo isType.step isName wordless
      rw [← start] at param
      exact (param.fits.earlier step₁).later step₅
    refine .get (.ite (fun atEllipsis => ?_) fun _ => .pure_bind (finish type c₂ isType))
    obtain ⟨dots, rest, found, -⟩ := exists_of_atKind atEllipsis
    refine (advance_leads step₂.sound found).bind fun _ c₃ step₃ isDots => .pure_bind ?_
    have start : type.span.start = c₁.here := isType.start
    have place : c₂.place = dots.span := by simp only [Cursor.place, found]
    rw [start, place]
    refine finish _ c₃ ?_
    exact (TypeRef.grown isType).extend (.refl step₂.sound) isDots.spans "..."

/-- A list of parameters reads at least its parenthesis. -/
private theorem paramList_leads (sound : c.Sound boundary) :
    Leads boundary paramList c fun params c' =>
      c.Fits boundary (params.map ParamDecl.outline) c' ∧
        (c.atKind .openParen = true → c.here ≤ c'.lastEnd) := by
  -- That the reader has passed the opening parenthesis is kept along, since it tells where
  -- a method without parameters ends.
  have opened : Leads boundary (discard (expect .openParen)) c
      fun _ c' => c.atKind .openParen = true → c.here ≤ c'.lastEnd :=
    ⟨(expect_leads sound).step, fun atIt => (expect_reads sound atIt).post.passed⟩
  refine opened.bind fun _ c₁ step₁ passed => ?_
  have params : Leads boundary (collect paramStep) c₁
      fun params c' => c₁.Fits boundary (params.map ParamDecl.outline) c' :=
    collect_leads step₁.sound fun c' step => paramStep_leads step.sound
  refine params.bind fun params c₂ step₂ fits => ?_
  refine ((discard_moves (expect_moves _)).passes c₂ step₂.sound).bind fun _ c₃ step₃ _ => ?_
  refine .pure step₃.sound ⟨(fits.earlier step₁).later step₃, fun atIt => ?_⟩
  exact Nat.le_trans (passed atIt) (step₂.trans step₃).lastEnd_le

private theorem methodBody_leads (sound : c.Sound boundary) :
    Leads boundary methodBody c
      fun body c' => c.Fits boundary (body.toList.map Block.outline) c' := by
  refine .get (.ite (fun _ => (block_leads sound).map fun _ _ _ spans => spans.fits) fun _ => ?_)
  have ended := (discard_moves (expectAs_moves .semicolon .semicolonOrBody)).passes c sound
  exact ended.bind fun _ c₁ step₁ _ => .pure step₁.sound (.nil step₁)

/-- The rest of a method spans all of the method with what was read before. -/
private theorem methodRest_leads {notes : List Annotation} {type : TypeRef} {name : Token}
    (head : c₀.Fits boundary (notes.map Annotation.outline ++ [type.outline, name.outline]) c)
    (atOpening : c.atKind .openParen = true) :
    Leads boundary (methodRest c₀.here notes type name) c
      fun member c' => c₀.Spans boundary member.outline c' := by
  refine (paramList_leads head.step.sound).bind fun params c₁ step₁ ⟨isParams, passed⟩ => ?_
  refine (throwsClause_moves.passes c₁ step₁.sound).bind fun _ c₂ step₂ _ => ?_
  refine (defaultValue_moves.passes c₂ step₂.sound).bind fun _ c₃ step₃ _ => ?_
  refine (methodBody_leads step₃.sound).bind fun body c₄ step₄ isBody => .get ?_
  refine .pure step₄.sound ?_
  have between := step₂.trans step₃
  have parts := (head.append (isParams.later between)).append isBody
  -- The method stops behind its own start, as at least its opening parenthesis is read.
  have reached : c₀.here ≤ c₄.lastEnd := by
    have := head.step.here_le
    have := passed atOpening
    have := (between.trans step₄).lastEnd_le
    omega
  have method := parts.since reached wordless
  rwa [List.append_assoc (notes.map Annotation.outline)] at method

private theorem fieldRest_leads {type : TypeRef} {name : Token}
    (head : c₀.Fits boundary [type.outline, name.outline] c) :
    Leads boundary (fieldRest c₀.here type name) c
      fun member c' => c₀.Spans boundary member.outline c' := by
  refine ((iterate_moves fieldStep_moves ()).passes c head.step.sound).bind fun _ c₁ step₁ _ => ?_
  exact (expect_leads step₁.sound).bind fun closing c₂ step₂ isClosing =>
    .pure step₂.sound ((head.later step₁).closed isClosing)

private theorem constructorRest_leads (before : c₀.Step boundary c) :
    Leads boundary (constructorRest c₀.here) c
      fun member c' => c₀.Spans boundary member.outline c' := by
  refine (expect_leads before.sound).bind fun name c₁ step₁ isName => ?_
  refine (paramList_leads step₁.sound).bind fun params c₂ step₂ ⟨isParams, _⟩ => ?_
  refine (throwsClause_moves.passes c₂ step₂.sound).bind fun _ c₃ step₃ _ => ?_
  refine (block_leads step₃.sound).bind fun body c₄ step₄ isBody => .pure step₄.sound ?_
  have parts := ((isName.fits.append isParams).later step₃).append isBody.fits
  exact (parts.earlier before).upTo (before.trans (step₁.trans (step₂.trans step₃))) isBody wordless

theorem initializerRest_leads (isStatic : Bool) (before : c₀.Step boundary c) :
    Leads boundary (initializerRest c₀.here isStatic) c
      fun member c' => c₀.Spans boundary member.outline c' :=
  (block_leads before.sound).bind fun _ _ step₁ isBody => .pure step₁.sound <|
    (isBody.fits.earlier before).upTo before isBody wordless

/-! ## Types and their members -/

/-- The words that declare a type are read, if they stand here. -/
theorem typeKind?_leads (sound : c.Sound boundary) :
    Leads boundary typeKind? c fun kind c' => kind ≠ none → c'.left < c.left := by
  refine .get (.ite (fun atAnnotation => ?_) fun _ => ?_)
  · have nonempty : c.rest ≠ [] := by
      rw [atAnnotationType, Bool.and_eq_true] at atAnnotation
      exact rest_ne_nil atAnnotation.1
    exact (advanceBy_leads sound nonempty).bind fun _ c₁ step₁ ⟨_, fewer⟩ =>
      .pure step₁.sound fun _ => fewer
  · split
    next => exact .pure sound fun some => absurd rfl some
    next kind isKeyword =>
      obtain ⟨token, isHead, -⟩ := Option.bind_eq_some_iff.mp isKeyword
      obtain ⟨rest, found⟩ := List.head?_eq_some_iff.mp isHead
      exact (advance_leads sound found).bind fun _ c₁ step₁ read =>
        .pure step₁.sound fun _ => read.left_lt

/-- What the reader reads from fewer than `bound` tokens has its place there. -/
def MembersWithin (boundary : Nat → Prop) (nested : String → Parser (Option Member))
    (bound : Nat) : Prop :=
  ∀ enclosing (c : Cursor), c.Sound boundary → c.left < bound → Leads boundary (nested enclosing) c
    fun member c' => c.Fits boundary (member.toList.map Member.outline) c'

/-- A method or field that is found spans all that was read since reading started. -/
private theorem typedMember_spans {notes : List Annotation}
    (head : c₀.Fits boundary (notes.map Annotation.outline) c) :
    Leads boundary (typedMember c₀.here notes) c
      fun member c' => ∀ m ∈ member, c₀.Spans boundary m.outline c' := by
  have before := head.step
  refine (typeRef?_leads before.sound).bind fun type c₁ step₁ read => ?_
  cases read with
  | none => exact .pure step₁.sound (by simp)
  | some type isType =>
    refine (expect_leads step₁.sound).bind fun name c₂ step₂ isName => .get ?_
    have own : c.Fits boundary [type.outline, name.outline] c₂ := isType.fits.append isName.fits
    refine .ite (fun atOpening => ?_) fun _ => ?_
    · exact (methodRest_leads (head.append own) atOpening).map fun _ _ _ spans => by simpa
    · exact (fieldRest_leads (own.earlier before)).map fun _ _ _ spans => by simpa

theorem plainMember_spans {notes : List Annotation} {enclosing : String}
    (head : c₀.Fits boundary (notes.map Annotation.outline) c) :
    Leads boundary (plainMember c₀.here notes enclosing) c
      fun member c' => ∀ m ∈ member, c₀.Spans boundary m.outline c' :=
  .get (.ite (fun _ => (constructorRest_leads head.step).map fun _ _ _ spans => by simpa)
    fun _ => typedMember_spans head)

private theorem plainMember_leads {notes : List Annotation} {enclosing : String}
    (head : c₀.Fits boundary (notes.map Annotation.outline) c) :
    Leads boundary (plainMember c₀.here notes enclosing) c
      fun member c' => c₀.Fits boundary (member.toList.map Member.outline) c' :=
  (plainMember_spans head).mono fun member _ step spans => by
    cases member with
    | none => exact .nil (head.step.trans step)
    | some member => exact (spans member rfl).fits

section Nesting

variable {nested : String → Parser (Option Member)} {bound : Nat}
  (reads : MembersWithin boundary nested bound)
include reads

theorem memberStep_leads (typeName : String) (sound : c.Sound boundary) (room : c.left < bound) :
    Leads boundary (memberStep nested typeName) c
      fun members c' => c.Fits boundary ((members.getD []).map Member.outline) c' := by
  refine .get (.ite (fun _ => .pure sound (.nil (.refl sound))) fun _ => ?_)
  refine (reads typeName c sound room).bind fun member c₁ step₁ fits => .get ?_
  refine .ite (fun _ => ?_) fun _ => .pure step₁.sound fits
  exact (advance_moves.passes c₁ step₁.sound).bind fun _ c₂ step₂ _ =>
    .pure step₂.sound (fits.later step₂)

/-- The braces of a type span its members, behind all that stands before them. -/
private theorem typeBody_leads (typeName : String) (isEnum : Bool) (sound : c.Sound boundary)
    (room : c.left < bound) : Leads boundary (typeBody nested typeName isEnum) c
      fun body c' => ∃ c₁, c.Step boundary c₁ ∧
        c₁.Spans boundary (.node [] body.2 (body.1.map Member.outline)) c' := by
  refine ((skipWhile_moves _).passes c sound).bind fun _ c₁ step₁ _ => ?_
  refine (expect_leads step₁.sound).bind fun opening c₂ step₂ isOpening => ?_
  -- The members are read in the same way whether or not constants come before them.
  have finish (c₃ : Cursor) (step₃ : c₂.Step boundary c₃) : Leads boundary (do
      let members ← collect (memberStep nested typeName)
      let closing ← expect .closeBrace
      return (members, (⟨opening.span.start, closing.span.stop⟩ : Span))) c₃
      fun body c' => ∃ c₁, c.Step boundary c₁ ∧
        c₁.Spans boundary (.node [] body.2 (body.1.map Member.outline)) c' := by
    have fewer : c₃.left < bound := (step₁.trans (step₂.trans step₃)).room_lt room
    have members : Leads boundary (collect (memberStep nested typeName)) c₃
        fun members c' => c₃.Fits boundary (members.map Member.outline) c' :=
      collect_leads step₃.sound fun c' step =>
        memberStep_leads reads typeName step.sound (step.room_lt fewer)
    refine members.bind fun members c₄ step₄ fits => ?_
    refine (expect_leads step₄.sound).bind fun closing c₅ step₅ isClosing => ?_
    have start : opening.span.start = c₁.here := isOpening.start
    refine .pure step₅.sound ⟨c₁, step₁, ?_⟩
    rw [start]
    exact (fits.earlier (step₂.trans step₃)).closed isClosing
  refine .ite (fun _ => ?_) fun _ => finish c₂ (.refl step₂.sound)
  exact (enumConstants_moves.passes c₂ step₂.sound).bind fun _ c₃ step₃ _ => finish c₃ step₃

/-- Where no type is declared, reading starts over with the errors that were found. -/
theorem typeDecl?_leads (sound : c.Sound boundary) (room : c.left ≤ bound) :
    Leads boundary (typeDecl? nested) c
      fun decl c' => ∀ d ∈ decl, c.Spans boundary d.outline c' := by
  have notes : Leads boundary (discard modifiersAndAnnotations) c fun _ _ => True :=
    ⟨(modifiersAndAnnotations_leads sound).step, trivial⟩
  refine .get (.of_ensures (notes.after fun _ c₁ step₁ _ => ?_))
  refine (typeKind?_leads step₁.sound).after fun kind c₂ step₂ read => ?_
  cases kind with
  -- Where no keyword follows, the reader goes back to where the notes started.
  | none => exact ⟨(step₁.trans step₂).rewind, fun _ isNone => by cases isNone⟩
  | some kind =>
    refine Leads.ensures (step₁.trans step₂) ?_
    refine (expect_leads step₂.sound).bind fun name c₃ step₃ isName => ?_
    have room := step₁.room_le room
    -- The keyword has been read, so the members are within the bound.
    have fewer : c₂.left < bound := Nat.lt_of_lt_of_le (read (Option.some_ne_none kind)) room
    have fewer : c₃.left < bound := step₃.room_lt fewer
    refine (typeBody_leads reads name.text _ step₃.sound fewer).bind fun body c₄ step₄ isBody => ?_
    obtain ⟨c₅, between, isBody⟩ := isBody
    have before := step₁.trans (step₂.trans (step₃.trans between))
    have decl := (isBody.fits.earlier before).upTo before isBody
      fun clean => isName.filled (step₄.clean clean)
    refine .pure step₄.sound fun d isDecl => ?_
    cases isDecl
    exact decl

private theorem memberOf_leads (enclosing : String) (sound : c.Sound boundary)
    (room : c.left ≤ bound) : Leads boundary (memberOf nested enclosing) c
      fun member c' => c.Fits boundary (member.toList.map Member.outline) c' := by
  refine .get (.ite (fun _ => .pure sound (.nil (.refl sound))) fun _ => ?_)
  refine (modifiersAndAnnotations_leads sound).bind fun notes c₁ step₁ isNotes => ?_
  refine ((skipGroup_moves _ _).passes c₁ step₁.sound).bind fun _ c₂ step₂ _ => .get ?_
  have before := step₁.trans step₂
  refine .ite (fun _ => ?_) fun _ => .ite (fun _ => ?_) fun _ => ?_
  · refine (advance_moves.passes c₂ step₂.sound).bind fun _ c₃ step₃ _ => ?_
    exact (initializerRest_leads true (before.trans step₃)).map fun _ _ _ spans => spans.fits
  · exact (initializerRest_leads false before).map fun _ _ _ spans => spans.fits
  refine .ite (fun _ => ?_) fun _ => plainMember_leads (isNotes.later step₂)
  refine (typeDecl?_leads reads step₂.sound (before.room_le room)).bind
    fun decl c₃ step₃ isDecl => ?_
  cases decl with
  | none => exact plainMember_leads (isNotes.later (step₂.trans step₃))
  | some decl =>
    refine .pure step₃.sound ?_
    -- The annotations in front of a nested type are no part of it, nor are its modifiers.
    have member : (Member.type decl.header decl.members).outline = decl.outline := by
      rw [Member.outline, Member.outlineAll_eq, TypeDecl.outline]
    rw [Option.toList_some, List.map_singleton, member]
    exact (isDecl decl rfl).fits.earlier before

end Nesting

/-- A reader of a depth reads from fewer tokens; where the depth is zero there are none. -/
theorem memberWithin_fits (depth : Nat) :
    MembersWithin boundary (memberWithin depth) depth := by
  induction depth with
  | zero => exact fun _ c _ room => absurd room (Nat.not_lt_zero _)
  | succ depth ih =>
    exact fun enclosing c sound room => memberOf_leads ih enclosing sound (Nat.le_of_lt_succ room)

theorem member?_fits (bound : Nat) : MembersWithin boundary member? bound :=
  fun enclosing c sound _ => .get (memberWithin_fits _ enclosing c sound (Nat.lt_succ_self _))

/-! ## Units -/

theorem unitStep_leads (sound : c.Sound boundary) :
    Leads boundary unitStep c
      fun types c' => c.Fits boundary ((types.getD []).map TypeDecl.outline) c' := by
  refine .get (.ite (fun _ => .pure sound (.nil (.refl sound))) fun _ => ?_)
  refine (typeDecl?_leads (member?_fits c.left) sound (Nat.le_refl _)).bind
    fun decl c₁ step₁ isDecl => ?_
  cases decl with
  | some decl => exact .pure step₁.sound (isDecl decl rfl).fits
  | none =>
    refine ((report_moves _).passes c₁ step₁.sound).bind fun _ c₂ step₂ _ => ?_
    exact (advance_moves.passes c₂ step₂.sound).bind fun _ c₃ step₃ _ =>
      .pure step₃.sound (.nil (step₁.trans (step₂.trans step₃)))

/-- A unit reaches from the first token to the end of the text, so it is not the last token
that its types must not exceed. -/
theorem compilationUnit_leads (sound : c.Sound boundary) (zero : boundary 0) :
    Leads boundary compilationUnit c fun unit c' =>
      (unit.outline.Every fun node => node.span.Valid boundary) ∧
        (c'.errors = [] → unit.outline.Every fun node => node.Nested ∧ node.Filled) := by
  refine .get (((iterate_moves importStep_moves ()).passes c sound).bind fun _ c₁ step₁ _ => ?_)
  have types : Leads boundary (collect unitStep) c₁
      fun types c' => c₁.Fits boundary (types.map TypeDecl.outline) c' :=
    collect_leads step₁.sound fun c' step => unitStep_leads step.sound
  refine types.bind fun types c₂ step₂ fits => .pure step₂.sound ?_
  have textEnd : c₂.textEnd = c.textEnd := (step₁.trans step₂).textEnd_eq
  have reached : c₂.lastEnd ≤ c.textEnd := textEnd ▸ step₂.sound.lastEnd_le_textEnd
  -- Without tokens the unit starts at zero, wherever the text ends.
  have start : (c.rest.head?.map (·.span.start)).getD 0 ≤ c.here ∧
      boundary ((c.rest.head?.map (·.span.start)).getD 0) := by
    cases found : c.rest with
    | nil => exact ⟨Nat.zero_le _, zero⟩
    | cons token rest =>
      obtain ⟨valid, -, start, -⟩ := sound.head found
      exact ⟨Nat.le_of_eq start, valid.start⟩
  have ordered := Nat.le_trans start.1 sound.here_le_textEnd
  have place : (⟨_, c.textEnd⟩ : Span).Valid boundary := ⟨ordered, start.2, sound.textEnd⟩
  exact (fits.earlier step₁).around place start.1 (fun _ => reached) wordless

end Parser
end MethodContracts.Source
