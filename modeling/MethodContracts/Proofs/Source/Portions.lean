import Mathlib.Data.List.Basic
import MethodContracts.Source.Declaration

/-!
# The tokens of a type body

Between the braces of a type stand its members, one behind the other, and what no member has.
A member may have modifiers and annotations, and type parameters behind them. Where no member
follows on these they are dropped, and so is a token that begins nothing. A stray semicolon is
no loss.
-/
namespace MethodContracts.Source

/-- In front of `rest` the parser reads these tokens, and finds no error. -/
def Parser.Spends {α : Type} (parser : Parser α) (tokens rest : List Token) : Prop :=
  ∃ c : Cursor, c.rest = tokens ++ rest ∧ (parser c).2.rest = rest ∧ (parser c).2.errors = []

/-- A member is read here, behind its modifiers and type parameters. -/
def Cursor.AtMember (c : Cursor) : Prop :=
  c.atKind .ident = true ∨ c.atKind .openBrace = true ∨ c.atAnnotationType = true

/-- The span reaches from the first of the tokens to the last. -/
structure Along (span : Span) (own : List Token) : Prop where
  first : own.head?.map (·.span.start) = some span.start
  last : own.getLast?.map (·.span.stop) = some span.stop
  inside : ∀ token ∈ own, span.start ≤ token.span.start ∧ token.span.stop ≤ span.stop

open Source.Parser

/-- A member, and the tokens that belong to it. -/
abbrev Share := Member × List Token

/-- In front of `rest` the tokens of a body are the shares of its members, in order, and those
that are dropped. -/
inductive Portions (rest : List Token) :
    (shares : List Share) → (dropped tokens : List Token) → Prop where
  | done : Portions rest [] [] []
  | semicolon {shares : List Share} {dropped tokens : List Token} {token : Token}
    (isSemicolon : token.kind = .semicolon) (others : Portions rest shares dropped tokens) :
    Portions rest shares dropped (token :: tokens)
  /-- A token that begins neither a member nor what stands in front of one. -/
  | stray {shares : List Share} {dropped tokens : List Token} {token : Token}
    (begins : token.kind ∉ [.ident, .atSign, .less, .openBrace, .closeBrace, .semicolon])
    (others : Portions rest shares dropped tokens) :
    Portions rest shares (token :: dropped) (token :: tokens)
  /-- Modifiers, annotations and type parameters that no member follows on. -/
  | abandoned {shares : List Share} {dropped tokens notes params : List Token}
    (isNotes : Spends modifiersAndAnnotations notes (params ++ (tokens ++ rest)))
    (isParams : Spends (skipGroup .less .greater) params (tokens ++ rest))
    (unfollowed : ∀ c : Cursor, c.rest = tokens ++ rest → ¬c.AtMember)
    (others : Portions rest shares dropped tokens) :
    Portions rest shares (notes ++ (params ++ dropped)) (notes ++ (params ++ tokens))
  /-- The span of a member takes in what stands in front of it. -/
  | member {shares : List Share} {dropped tokens own : List Token} {member : Member}
    (along : Along member.span own) (others : Portions rest shares dropped tokens) :
    Portions rest ((member, own) :: shares) dropped (own ++ tokens)
  /-- A nested type starts behind its modifiers and annotations. Its type parameters stand behind
  its name, so those in front of it are dropped. -/
  | type {shares : List Share} {inner : List Member} {header : TypeHeader}
    {dropped tokens notes params own : List Token}
    (isNotes : Spends modifiersAndAnnotations notes (params ++ (own ++ (tokens ++ rest))))
    (isParams : Spends (skipGroup .less .greater) params (own ++ (tokens ++ rest)))
    (along : Along header.span own) (others : Portions rest shares dropped tokens) :
    Portions rest ((.type header inner, notes ++ own) :: shares) (params ++ dropped)
      (notes ++ (params ++ (own ++ tokens)))

namespace Portions

variable {rest tokens dropped : List Token} {shares : List Share}

/-- Every token of a body is dropped, a stray semicolon, or in a member's share. -/
theorem owner (portions : Portions rest shares dropped tokens) : ∀ token ∈ tokens,
    token ∈ dropped ∨ token.kind = .semicolon ∨ ∃ share ∈ shares, token ∈ share.2 := by
  induction portions with
  | done => exact List.forall_mem_nil _
  | semicolon isSemicolon _ ih => exact List.forall_mem_cons.mpr ⟨.inr (.inl isSemicolon), ih⟩
  | stray _ _ ih =>
    refine List.forall_mem_cons.mpr ⟨.inl List.mem_cons_self, fun token isToken => ?_⟩
    exact (ih token isToken).imp_left (List.mem_cons_of_mem _)
  -- Nobody owns what is abandoned: the notes and the parameters are dropped.
  | abandoned _ _ _ _ ih =>
    intro token isToken
    simp only [List.mem_append] at isToken ⊢
    rcases isToken with isNote | isParam | isOther
    · exact .inl (.inl isNote)
    · exact .inl (.inr (.inl isParam))
    · exact (ih token isOther).imp_left fun isDropped => .inr (.inr isDropped)
  | member _ _ ih =>
    simp only [List.exists_mem_cons_iff]
    intro token isToken
    rcases List.mem_append.mp isToken with isOwn | isOther
    · exact .inr (.inr (.inl isOwn))
    · exact (ih token isOther).imp_right (Or.imp_right .inr)
  | type _ _ _ _ ih =>
    simp only [List.exists_mem_cons_iff]
    intro token isToken
    simp only [List.mem_append] at isToken ⊢
    rcases isToken with isNote | isParam | isOwn | isOther
    · exact .inr (.inr (.inl (.inl isNote)))
    · exact .inl (.inl isParam)
    · exact .inr (.inr (.inl (.inr isOwn)))
    · exact (ih token isOther).imp .inr (Or.imp_right .inr)

theorem dropped_subset (portions : Portions rest shares dropped tokens) : dropped ⊆ tokens := by
  induction portions with
  | done => exact List.Subset.refl _
  | semicolon _ _ ih => exact List.subset_cons_of_subset _ ih
  | stray _ _ ih => exact List.cons_subset_cons _ ih
  | abandoned _ _ _ _ ih =>
    intro token isToken
    simp only [List.mem_append] at isToken ⊢
    exact isToken.imp_right (Or.imp_right (ih ·))
  | member _ _ ih => exact List.subset_append_of_subset_right _ ih
  | type _ _ _ _ ih =>
    intro token isToken
    simp only [List.mem_append] at isToken ⊢
    exact isToken.elim (fun isParam => .inr (.inl isParam)) fun isDropped =>
      .inr (.inr (.inr (ih isDropped)))

theorem share_subset (portions : Portions rest shares dropped tokens) :
    ∀ share ∈ shares, share.2 ⊆ tokens := by
  induction portions with
  | done => exact List.forall_mem_nil _
  | semicolon _ _ ih | stray _ _ ih =>
    exact fun share isShare => List.subset_cons_of_subset _ (ih share isShare)
  | abandoned _ _ _ _ ih =>
    exact fun share isShare => List.subset_append_of_subset_right _
      (List.subset_append_of_subset_right _ (ih share isShare))
  | member _ _ ih =>
    exact List.forall_mem_cons.mpr ⟨List.subset_append_left _ _, fun share isShare =>
      List.subset_append_of_subset_right _ (ih share isShare)⟩
  | type _ _ _ _ ih =>
    refine List.forall_mem_cons.mpr ⟨fun token isToken => ?_, fun share isShare token isToken => ?_⟩
    · rcases List.mem_append.mp isToken with isNote | isOwn <;> simp [*]
    · simp [ih share isShare isToken]

/-! ## What is dropped belongs to no member -/

/-- The tokens stand one behind the other and are not empty. -/
structure Laid (tokens : List Token) : Prop where
  ordered : tokens.Pairwise fun first second => first.span.stop ≤ second.span.start
  solid : ∀ token ∈ tokens, token.span.start < token.span.stop

theorem Laid.behind {front back : List Token} (laid : Laid (front ++ back)) : Laid back :=
  ⟨(List.pairwise_append.mp laid.ordered).2.1,
    fun token isToken => laid.solid token (List.mem_append_right _ isToken)⟩

theorem Laid.front {front back : List Token} (laid : Laid (front ++ back)) : Laid front :=
  ⟨(List.pairwise_append.mp laid.ordered).1,
    fun token isToken => laid.solid token (List.mem_append_left _ isToken)⟩

theorem Laid.before {front back : List Token} (laid : Laid (front ++ back)) :
    ∀ first ∈ front, ∀ second ∈ back, first.span.start < second.span.start := by
  intro first isFirst second isSecond
  have := (List.pairwise_append.mp laid.ordered).2.2 first isFirst second isSecond
  have := laid.solid first (List.mem_append_left _ isFirst)
  omega

/-- A token stands in one place only. -/
theorem Laid.disjoint {front back : List Token} (laid : Laid (front ++ back)) :
    List.Disjoint front back := by
  intro token isFirst isSecond
  exact Nat.lt_irrefl _ (laid.before token isFirst token isSecond)

/-- No dropped token is in a share. -/
theorem disjoint (portions : Portions rest shares dropped tokens) (laid : Laid tokens) :
    ∀ share ∈ shares, List.Disjoint dropped share.2 := by
  -- What stands in front of all shares is in none of them.
  have front {front tokens dropped : List Token} {shares : List Share}
      (portions : Portions rest shares dropped tokens) (laid : Laid (front ++ tokens)) :
      ∀ share ∈ shares, List.Disjoint front share.2 := fun share isShare =>
    List.disjoint_of_subset_right (portions.share_subset share isShare) laid.disjoint
  induction portions with
  | done => exact List.forall_mem_nil _
  | semicolon _ _ ih =>
    have apart : Laid ([_] ++ _) := laid
    exact ih apart.behind
  | stray _ others ih =>
    have apart : Laid ([_] ++ _) := laid
    intro share isShare
    exact List.disjoint_append_left.mpr
      ⟨front others apart share isShare, ih apart.behind share isShare⟩
  | abandoned _ _ _ others ih =>
    intro share isShare
    rw [← List.append_assoc] at laid ⊢
    exact List.disjoint_append_left.mpr
      ⟨front others laid share isShare, ih laid.behind share isShare⟩
  | member _ others ih =>
    refine List.forall_mem_cons.mpr ⟨?_, ih laid.behind⟩
    exact List.disjoint_symm (List.disjoint_of_subset_right others.dropped_subset laid.disjoint)
  | @type shares inner header dropped tokens notes params own _ _ _ others ih =>
    have isTokens : dropped ⊆ own ++ tokens :=
      List.subset_append_of_subset_right own others.dropped_subset
    have isBehind : params ++ dropped ⊆ params ++ (own ++ tokens) :=
      List.append_subset.mpr ⟨List.subset_append_left _ _,
        List.subset_append_of_subset_right params isTokens⟩
    refine List.forall_mem_cons.mpr ⟨?_, fun share isShare => ?_⟩
    · refine List.disjoint_append_right.mpr ⟨?_, List.disjoint_append_left.mpr ⟨?_, ?_⟩⟩
      · exact List.disjoint_symm (List.disjoint_of_subset_right isBehind laid.disjoint)
      · exact List.disjoint_of_subset_right (List.subset_append_left _ _) laid.behind.disjoint
      · exact List.disjoint_symm
          (List.disjoint_of_subset_right others.dropped_subset laid.behind.behind.disjoint)
    · have isOther := List.subset_append_of_subset_right own (others.share_subset share isShare)
      exact List.disjoint_append_left.mpr
        ⟨List.disjoint_of_subset_right isOther laid.behind.disjoint,
          ih laid.behind.behind.behind share isShare⟩

theorem share_along (portions : Portions rest shares dropped tokens) :
    ∀ share ∈ shares, ∃ own, own ⊆ tokens ∧ Along share.1.span own := by
  induction portions with
  | done => exact List.forall_mem_nil _
  | semicolon _ _ ih | stray _ _ ih =>
    intro share isShare
    obtain ⟨own, isToken, along⟩ := ih share isShare
    exact ⟨own, List.subset_cons_of_subset _ isToken, along⟩
  | abandoned _ _ _ _ ih =>
    intro share isShare
    obtain ⟨own, isToken, along⟩ := ih share isShare
    exact ⟨own, List.subset_append_of_subset_right _
      (List.subset_append_of_subset_right _ isToken), along⟩
  | member along _ ih =>
    refine List.forall_mem_cons.mpr
      ⟨⟨_, List.subset_append_left _ _, along⟩, fun share isShare => ?_⟩
    obtain ⟨own, isToken, along⟩ := ih share isShare
    exact ⟨own, List.subset_append_of_subset_right _ isToken, along⟩
  | @type _ _ _ _ _ notes params first _ _ along _ ih =>
    -- The span of a nested type leaves out its notes.
    have wider {own tokens : List Token} (isToken : own ⊆ first ++ tokens) :
        own ⊆ notes ++ (params ++ (first ++ tokens)) :=
      List.subset_append_of_subset_right _ (List.subset_append_of_subset_right _ isToken)
    refine List.forall_mem_cons.mpr
      ⟨⟨_, wider (List.subset_append_left _ _), along⟩, fun share isShare => ?_⟩
    obtain ⟨own, isToken, along⟩ := ih share isShare
    exact ⟨own, wider (List.subset_append_of_subset_right _ isToken), along⟩

/-- What is dropped is in no member's span: it stands before the first token of the member, or
behind the last one. -/
theorem outside (portions : Portions rest shares dropped tokens) (laid : Laid tokens) :
    ∀ token ∈ dropped, ∀ share ∈ shares,
      ¬(share.1.span.start ≤ token.span.start ∧ token.span.stop ≤ share.1.span.stop) := by
  -- What stands in front of all shares starts before their spans.
  have before {front tokens dropped : List Token} {shares : List Share}
      (portions : Portions rest shares dropped tokens) (laid : Laid (front ++ tokens)) :
      ∀ token ∈ front, ∀ share ∈ shares,
        ¬(share.1.span.start ≤ token.span.start ∧ token.span.stop ≤ share.1.span.stop) := by
    intro token isFront share isShare
    obtain ⟨own, isToken, along⟩ := portions.share_along share isShare
    obtain ⟨first, isFirst, start⟩ := Option.map_eq_some_iff.mp along.first
    have := laid.before token isFront first (isToken (List.mem_of_head? isFirst))
    omega
  -- What stands behind a share ends after its span.
  have behind {own tokens dropped : List Token} {span : Span} (along : Along span own)
      (isToken : dropped ⊆ tokens) (laid : Laid (own ++ tokens)) : ∀ token ∈ dropped,
        ¬(span.start ≤ token.span.start ∧ token.span.stop ≤ span.stop) := by
    intro token isDropped
    obtain ⟨last, isLast, stop⟩ := Option.map_eq_some_iff.mp along.last
    have := (List.pairwise_append.mp laid.ordered).2.2 last (List.mem_of_getLast? isLast) token
      (isToken isDropped)
    have := laid.behind.solid token (isToken isDropped)
    omega
  induction portions with
  | done => exact List.forall_mem_nil _
  | semicolon _ _ ih =>
    have apart : Laid ([_] ++ _) := laid
    exact ih apart.behind
  | stray _ others ih =>
    have apart : Laid ([_] ++ _) := laid
    exact List.forall_mem_cons.mpr ⟨before others apart _ List.mem_cons_self, ih apart.behind⟩
  | abandoned _ _ _ others ih =>
    rw [← List.append_assoc] at laid ⊢
    exact List.forall_mem_append.mpr ⟨before others laid, ih laid.behind⟩
  | member along others ih =>
    exact fun token isDropped => List.forall_mem_cons.mpr
      ⟨behind along others.dropped_subset laid token isDropped, ih laid.behind token isDropped⟩
  | @type _ inner header _ _ _ _ own _ _ along others ih =>
    -- The type parameters of a nested type stand in front of it, though its notes are its own.
    have spanned : Along (Member.type header inner).span own := along
    have ahead := before (.member spanned others) laid.behind
    refine List.forall_mem_append.mpr ⟨fun token isParam => List.forall_mem_cons.mpr
      (List.forall_mem_cons.mp (ahead token isParam)), fun token isDropped => ?_⟩
    exact List.forall_mem_cons.mpr
      ⟨behind along others.dropped_subset laid.behind.behind token isDropped,
        ih laid.behind.behind.behind token isDropped⟩

end Portions
end MethodContracts.Source
