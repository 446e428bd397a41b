import MethodContracts.Proofs.Source.Enclosing
import MethodContracts.Proofs.Source.Portions

/-!
# What one turn of reading members takes

Reading a member takes its tokens, or modifiers and type parameters that no member follows on,
or nothing if the next token begins neither. The span of a member reaches to the last token that
was read, so its tokens are its share; a nested type has its modifiers and annotations besides.
-/
namespace MethodContracts.Source

open Cursor Source.Parser

variable {boundary : Nat → Prop} {c c' c'' : Cursor}

/-! ## Portions between cursors -/

/-- What was read from `c` to `c'` adds the shares of these members to those that are read
behind it. -/
def Adds (c c' : Cursor) (members : List Member) : Prop :=
  ∃ (shares : List Share) (dropped tokens : List Token), shares.map (·.1) = members ∧
    c.rest = tokens ++ c'.rest ∧ ∀ rest shares' dropped' tokens',
      c'.rest = tokens' ++ rest → Portions rest shares' dropped' tokens' →
        Portions rest (shares ++ shares') (dropped ++ dropped') (tokens ++ tokens')

namespace Adds

variable {members others : List Member}

theorem nil (same : c'.rest = c.rest) : Adds c c' [] :=
  ⟨[], [], [], rfl, same.symm, fun _ _ _ _ _ portions => portions⟩

theorem trans (first : Adds c c' members) (second : Adds c' c'' others) :
    Adds c c'' (members ++ others) := by
  obtain ⟨shares₁, dropped₁, tokens₁, rfl, whole₁, adds₁⟩ := first
  obtain ⟨shares₂, dropped₂, tokens₂, rfl, whole₂, adds₂⟩ := second
  refine ⟨shares₁ ++ shares₂, dropped₁ ++ dropped₂, tokens₁ ++ tokens₂, List.map_append, ?_,
    fun rest _ _ tokens split portions => ?_⟩
  · rw [whole₁, whole₂, List.append_assoc]
  · have behind : c'.rest = tokens₂ ++ tokens ++ rest := by
      rw [whole₂, split, List.append_assoc]
    simp only [List.append_assoc]
    exact adds₁ _ _ _ _ behind (adds₂ _ _ _ _ split portions)

theorem portions (adds : Adds c c' members) : ∃ (shares : List Share) (dropped tokens : List Token),
    shares.map (·.1) = members ∧ c.rest = tokens ++ c'.rest ∧
      Portions c'.rest shares dropped tokens := by
  obtain ⟨shares, dropped, tokens, isMembers, whole, adds⟩ := adds
  have ended := adds c'.rest [] [] [] rfl .done
  rw [List.append_nil, List.append_nil, List.append_nil] at ended
  exact ⟨shares, dropped, tokens, isMembers, whole, ended⟩

/-- A member along all that was read. -/
theorem member {own : List Token} {member : Member} (whole : c.rest = own ++ c'.rest)
    (along : Along member.span own) : Adds c c' [member] :=
  ⟨[(member, own)], [], own, rfl, whole, fun _ _ _ _ _ others => .member along others⟩

end Adds

theorem Parser.Moves.spends {α : Type} {parser : Parser α} (moves : parser.Moves) (c : Cursor)
    (clean : (parser c).2.errors = []) :
    ∃ tokens, c.rest = tokens ++ (parser c).2.rest ∧ parser.Spends tokens (parser c).2.rest := by
  obtain ⟨tokens, whole⟩ := (moves c).rest
  exact ⟨tokens, whole.symm, c, whole.symm, rfl, clean⟩

/-- What stands up to a token lies between its end and where the first token starts. -/
theorem Ranged.inside {low high : Nat} {front behind : List Token} {last : Token}
    (ranged : Ranged boundary low (front ++ last :: behind) high) :
    ∀ token ∈ front ++ [last], low ≤ token.span.start ∧ token.span.start ≤ token.span.stop ∧
      token.span.stop ≤ last.span.stop := by
  -- What bounds the tokens from below moves up with each token, so `low` is any place.
  induction front generalizing low with
  | nil =>
    exact List.forall_mem_singleton.mpr ⟨ranged.1, ranged.2.1.ordered, Nat.le_refl _⟩
  | cons first front ih =>
    obtain ⟨start, valid, -, others⟩ := ranged
    have later := ih others
    have reached := later last (by simp)
    have ordered := valid.ordered
    refine List.forall_mem_cons.mpr ⟨by omega, fun token member => ?_⟩
    have := later token member
    omega

theorem Cursor.Sound.ranged_here (sound : c.Sound boundary) :
    Ranged boundary c.here c.rest c.textEnd := by
  have ranged := sound.tokens
  cases found : c.rest with
  | nil => simp only [Cursor.here, found, Ranged, Nat.le_refl]
  | cons token rest =>
    rw [found] at ranged
    simp only [Cursor.here, found]
    exact ⟨Nat.le_refl _, ranged.2⟩

/-- A declaration that starts where reading started, and ends with the last token. -/
theorem Cursor.Spans.along {outline : Outline} (spans : c.Spans boundary outline c')
    (clean : c'.errors = []) (closes : c.Closes c') :
    ∃ own, c.rest = own ++ c'.rest ∧ Along outline.span own := by
  -- The token that ends the outline is the last one read, so the tokens of the outline are
  -- those up to it: they start where the outline starts and stop where it stops.
  obtain ⟨last, -, ⟨front, whole⟩, stop⟩ := closes
  have ends : outline.span.stop = last.span.stop := (spans.stop clean).trans stop
  have split : c.rest = (front ++ [last]) ++ c'.rest := by
    rw [← whole, List.append_assoc, List.singleton_append]
  refine ⟨front ++ [last], split, ?_, ?_, fun token member => ?_⟩
  · obtain ⟨first, own, isOwn⟩ := List.exists_cons_of_ne_nil (List.concat_ne_nil last front)
    have found : c.rest = first :: (own ++ c'.rest) := by rw [split, isOwn, List.cons_append]
    rw [spans.start, Cursor.here, found, isOwn]
    rfl
  · rw [List.getLast?_concat, ends]
    rfl
  · have ranged := spans.step.start.ranged_here
    rw [← whole] at ranged
    have inside := ranged.inside token member
    exact ⟨spans.start ▸ inside.1, ends ▸ inside.2.2⟩

/-! ## One member -/

private theorem Cursor.atMember_congr (same : c'.rest = c.rest) : c'.AtMember ↔ c.AtMember := by
  simp only [Cursor.AtMember, Cursor.atKind, Cursor.kind?, Cursor.atAnnotationType,
    Cursor.nthWord, same]

section Member

variable {nested : String → Parser (Option Member)} {start : Nat} {notes : List Annotation}
  {enclosing : String}

private theorem Parser.typedMember_none (yields : (typedMember start notes c).1 = none) :
    typedMember start notes c = (none, c) ∧ ¬c.atKind .ident = true := by
  by_cases atWord : c.atKind .ident = true
  · obtain ⟨type, isType⟩ := typeRef?_some atWord
    rw [typedMember, run_bind, isType] at yields
    dsimp only at yields
    rw [run_bind, run_bind, run_get, run_ite] at yields
    split at yields <;> cases yields
  · refine ⟨?_, atWord⟩
    rw [typedMember, run_bind, typeRef?_eq_none atWord]
    rfl

/-- Where no member is read, none begins there, and no token is read. -/
private theorem Parser.memberTail_none
    (yields : (memberTail nested start notes enclosing c).1 = none) :
    memberTail nested start notes enclosing c = (none, c) ∧ ¬c.AtMember := by
  rw [memberTail, run_bind, run_get] at yields ⊢
  split_ifs at yields ⊢ with atStatic atBlock atType
  · cases yields
  · cases yields
  · -- A type at the reader is declared, so it is not from here that nothing comes.
    have declared : (typeDecl? nested c).1 ≠ none := typeDecl?_atType atType
    obtain ⟨decl, isDecl⟩ := Option.ne_none_iff_exists'.mp declared
    rw [run_bind, isDecl] at yields
    cases yields
  · rw [plainMember, run_bind, run_get, run_ite] at yields ⊢
    split_ifs at yields ⊢ with named
    · cases yields
    · obtain ⟨stays, noWord⟩ := typedMember_none yields
      refine ⟨stays, ?_⟩
      rintro (atWord | atBrace | atAnnotation)
      · exact noWord atWord
      · exact atBlock atBrace
      · rw [Cursor.atType, Bool.or_eq_true, not_or] at atType
        exact atType.1 atAnnotation

theorem Parser.memberHead_leads (sound : c.Sound boundary) :
    Leads boundary memberHead c
      fun notes c' => c.Fits boundary (notes.map Annotation.outline) c' :=
  (modifiersAndAnnotations_leads sound).bind fun _ c₁ step₁ isNotes =>
    ((skipGroup_moves _ _).passes c₁ step₁.sound).bind fun _ _ step₂ _ =>
      .pure step₂.sound (isNotes.later step₂)

/-- What stands in front of a member is its modifiers, and then type parameters. -/
private theorem Parser.memberHead_spends (clean : (memberHead c).2.errors = []) :
    ∃ notes params, c.rest = notes ++ (params ++ (memberHead c).2.rest) ∧
      modifiersAndAnnotations.Spends notes (params ++ (memberHead c).2.rest) ∧
      (skipGroup .less .greater).Spends params (memberHead c).2.rest := by
  have before := skipGroup_moves .less .greater (modifiersAndAnnotations c).2
  have cleanNotes : (modifiersAndAnnotations c).2.errors = [] :=
    List.prefix_nil.mp (clean ▸ before.errors)
  obtain ⟨params, isRest, isParams⟩ :=
    Moves.spends (skipGroup_moves .less .greater) (modifiersAndAnnotations c).2 clean
  obtain ⟨notes, whole, isNotes⟩ := Moves.spends modifiersAndAnnotations_moves c cleanNotes
  rw [isRest] at whole isNotes
  exact ⟨notes, params, whole, isNotes, isParams⟩

/-- If nothing stands in front of a member, neither a modifier nor a type parameter begins. -/
private theorem Parser.memberHead_stays (stays : (memberHead c).2.rest = c.rest)
    (unread : ¬c.AtMember) : c.atKind .atSign = false ∧ c.atKind .less = false := by
  have notes := modifiersAndAnnotations_moves c
  have params := skipGroup_moves .less .greater (modifiersAndAnnotations c).2
  -- If the head as a whole reads nothing then neither of its two parts does.
  have same : (modifiersAndAnnotations c).2.rest = c.rest :=
    notes.rest.eq_of_length_le (stays ▸ params.rest.length_le)
  constructor
  · -- The first step of the notes would read this sign, as it is that of no declared type.
    rw [Bool.eq_false_iff]
    intro atSign
    have step : modifierStep.Consumes c := .get <| .ite
      (fun _ => .ite (fun atType => absurd (.inr (.inr atType)) unread)
        fun _ => (annotation_reads atSign).bind fun _ => .pure _)
      fun noSign => absurd atSign noSign
    have reads : modifiersAndAnnotations.Consumes c := by
      rw [modifiersAndAnnotations, collect_eq modifierStep_winds]
      refine step.bind fun values => ?_
      cases values with
      | none => exact .pure _
      | some values => exact (collect_moves modifierStep_moves).bind fun _ => .pure _
    exact absurd (congrArg List.length same) (Nat.ne_of_lt reads)
  · rw [Bool.eq_false_iff]
    intro atLess
    have atLess : (modifiersAndAnnotations c).2.atKind .less = true := by
      rwa [Cursor.atKind, Cursor.kind?, same]
    have reads := skipGroup_reads .greater atLess
    have stays := (congrArg List.length (stays.trans same.symm))
    exact absurd stays (Nat.ne_of_lt reads)

section Nesting

variable {bound : Nat} (moves : ∀ name, (nested name).Moves)

include moves in
private theorem Parser.memberTail_ends (start : Nat) (notes : List Annotation)
    (enclosing : String) : EndsTaken (memberTail nested start notes enclosing) := by
  refine .get fun _ => .ite (.after advance_moves fun _ => (initializerRest_ends _ _).taken) <|
    .ite (initializerRest_ends _ _).taken <| .ite ?_ (plainMember_ends _ _ _)
  intro c taken clean
  rw [run_bind] at taken clean ⊢
  have ends := typeDecl?_ends moves c
  cases declared : (typeDecl? nested c).1 with
  | none =>
    rw [declared] at taken clean
    exact (plainMember_ends _ _ _ _ taken clean).earlier (typeDecl?_moves moves c)
  | some decl =>
    rw [declared] at clean
    exact ends (by rw [declared]; exact Option.some_ne_none _) clean

private theorem Parser.memberTail_spans (reads : MembersWithin boundary nested bound)
    (enclosing : String) {c₀ : Cursor} (head : c₀.Fits boundary (notes.map Annotation.outline) c)
    (room : c.left ≤ bound) :
    Leads boundary (memberTail nested c₀.here notes enclosing) c fun member c' =>
      ∀ m ∈ member, c₀.Spans boundary m.outline c' ∨
        ∃ header inner, m = .type header inner ∧ c.Spans boundary m.outline c' := by
  have before := head.step
  -- A field or a method can follow directly, or after a type that could not be declared.
  have plain {c₁ : Cursor} (step : c.Step boundary c₁) :
      Leads boundary (plainMember c₀.here notes enclosing) c₁ fun member c' =>
        ∀ m ∈ member, c₀.Spans boundary m.outline c' ∨
          ∃ header inner, m = .type header inner ∧ c.Spans boundary m.outline c' :=
    (plainMember_spans (head.later step)).mono fun _ _ _ spans m isMember =>
      .inl (spans m isMember)
  refine .get (.ite (fun _ => ?_) fun _ => .ite (fun _ => ?_) fun _ =>
    .ite (fun _ => ?_) fun _ => plain (.refl before.sound))
  · refine (advance_moves.passes c before.sound).bind fun _ c₁ step₁ _ => ?_
    exact (initializerRest_leads true (before.trans step₁)).map fun _ _ _ spans =>
      by simpa using .inl spans
  · exact (initializerRest_leads false before).map fun _ _ _ spans => by simpa using .inl spans
  · refine (typeDecl?_leads reads before.sound room).bind fun decl c₁ step₁ isDecl => ?_
    cases decl with
    | none => exact plain step₁
    | some decl =>
      refine .pure step₁.sound fun m isMember => .inr ?_
      cases isMember
      refine ⟨decl.header, decl.members, rfl, ?_⟩
      rw [Member.outline, Member.outlineAll_eq]
      exact isDecl decl rfl

/-- What begins no member, and nothing that may stand in front of one. -/
def Cursor.Unread (c : Cursor) : Prop :=
  ∃ token rest, c.rest = token :: rest ∧ token.kind ∉ [.ident, .atSign, .less, .openBrace]

/-- If nothing stands in front of a member and none begins, the next token is unread. -/
private theorem Parser.memberHead_unread (more : ¬c.atEnd = true)
    (stays : (memberHead c).2.rest = c.rest) (unread : ¬(memberHead c).2.AtMember) :
    c.Unread := by
  rw [atMember_congr stays] at unread
  obtain ⟨noSign, noLess⟩ := memberHead_stays stays unread
  obtain ⟨token, rest, found⟩ := List.exists_cons_of_ne_nil (rest_ne_nil_of_not_atEnd more)
  refine ⟨token, rest, found, fun listed => ?_⟩
  have atIt := c.atKind_of_rest found rfl
  simp only [List.mem_cons, List.not_mem_nil, or_false] at listed
  rcases listed with isKind | isKind | isKind | isKind <;> rw [isKind] at atIt
  · exact unread (.inl atIt)
  · exact absurd atIt (by simp [noSign])
  · exact absurd atIt (by simp [noLess])
  · exact unread (.inr (.inl atIt))

/-- One member is read, or nothing, or what stands in front of a member without one. -/
def Parser.Turns (parser : Parser (Option Member)) (c : Cursor) : Prop :=
  ((parser c).1 = none ∧ (parser c).2.rest = c.rest ∧ c.Unread) ∨
    (parser c).2.left < c.left ∧ Adds c (parser c).2 (parser c).1.toList

include moves in
theorem Parser.memberOf_adds (reads : MembersWithin boundary nested bound) (enclosing : String)
    (sound : c.Sound boundary) (room : c.left ≤ bound) (more : ¬c.atEnd = true)
    (clean : (memberOf nested enclosing c).2.errors = []) :
    (memberOf nested enclosing).Turns c := by
  unfold Turns
  rw [memberOf_eq nested enclosing more] at clean ⊢
  obtain ⟨step, head⟩ := memberHead_leads sound
  obtain ⟨behind, spans⟩ := memberTail_spans reads enclosing head (step.room_le room)
  obtain ⟨notes, params, whole, isNotes, isParams⟩ := memberHead_spends (behind.clean clean)
  have ends := memberTail_ends moves c.here (memberHead c).1 enclosing (memberHead c).2
  cases yields : (memberTail nested c.here (memberHead c).1 enclosing (memberHead c).2).1 with
  -- No member: what the head has read is lost, and if that is nothing the reader stands at a
  -- token that starts no member.
  | none =>
    obtain ⟨stays, unread⟩ := memberTail_none yields
    rw [stays]
    by_cases same : (memberHead c).2.rest = c.rest
    · exact .inl ⟨rfl, same, memberHead_unread more same unread⟩
    · have fewer : (memberHead c).2.left < c.left :=
        Nat.lt_of_le_of_ne step.left_le fun left => same (step.before.rest.eq_of_length left)
      refine .inr ⟨fewer, [], notes ++ params, notes ++ params, rfl, ?_, ?_⟩
      · rw [List.append_assoc]
        exact whole
      · intro rest shares dropped tokens split portions
        rw [split] at isNotes isParams
        simp only [List.append_assoc]
        refine .abandoned isNotes isParams (fun c' isRest atMember => unread ?_) portions
        exact (atMember_congr (isRest.trans split.symm)).mp atMember
  | some member =>
    rw [yields] at ends spans
    have closes := ends (Option.some_ne_none _) clean
    refine .inr ⟨?_, ?_⟩
    · obtain ⟨token, -, suffix, -⟩ := closes
      exact Nat.lt_of_lt_of_le (Nat.lt_succ_self _) (suffix.length_le.trans step.left_le)
    rcases spans member rfl with spans | ⟨header, inner, rfl, spans⟩
    · -- A field, a method or an initializer covers its own head as well.
      obtain ⟨own, split, along⟩ := spans.along clean (closes.earlier step.before)
      rw [member.span_outline] at along
      exact .member split along
    · -- A declared type starts behind the head, which is therefore no part of its outline.
      obtain ⟨own, split, along⟩ := spans.along clean closes
      refine ⟨[(_, notes ++ own)], params, notes ++ (params ++ own), rfl, ?_, ?_⟩
      · simp only [List.append_assoc, ← split]
        exact whole
      · intro rest shares dropped tokens isRest portions
        rw [split, isRest] at isNotes isParams
        simp only [List.append_assoc]
        exact .type isNotes isParams along portions

end Nesting

end Member

end MethodContracts.Source
