import MethodContracts.Proofs.Source.Repetition
import MethodContracts.Source.Parse

/-!
# Where groups end

A group ends as soon as as many closing as opening brackets were read. The depth of a group
is counted in three ways: to measure it before anything is read, to skip it and to read it as
text. Each of them follows the same equation from token to token while the group is open, so
all three stop behind the same token, or at the end of the text if the group is never closed.
-/
namespace MethodContracts.Source

variable {opening closing : TokenKind} {depth : Nat} {token : Token} {tokens : List Token}

/-- How many of the tokens are of a kind. -/
def countKind (kind : TokenKind) (tokens : List Token) : Nat := tokens.countP (·.kind == kind)

/-- There are as many opening as closing tokens. -/
def Balanced (opening closing : TokenKind) (tokens : List Token) : Prop :=
  countKind opening tokens = countKind closing tokens

/-- The first `count` tokens are the shortest that balance, nothing at all left aside. -/
structure ShortestGroup (opening closing : TokenKind) (tokens : List Token) (count : Nat) :
    Prop where
  pos : 0 < count
  within : count ≤ tokens.length
  balanced : Balanced opening closing (tokens.take count)
  shortest : ∀ fewer, 0 < fewer → fewer < count → ¬Balanced opening closing (tokens.take fewer)

/-- A group that was `depth` deep is still open behind these tokens. -/
def StillOpen (opening closing : TokenKind) (depth : Nat) (tokens : List Token) : Prop :=
  countKind closing tokens < depth + countKind opening tokens

/-- A group that was `depth` deep ends with the last of the first `count` tokens. -/
structure Closes (opening closing : TokenKind) (depth : Nat) (tokens : List Token) (count : Nat) :
    Prop where
  pos : 0 < count
  within : count ≤ tokens.length
  closed : depth + countKind opening (tokens.take count) = countKind closing (tokens.take count)
  before : ∀ fewer, 0 < fewer → fewer < count → StillOpen opening closing depth (tokens.take fewer)

theorem StillOpen.not_balanced (isOpen : StillOpen opening closing 0 tokens) :
    ¬Balanced opening closing tokens := by
  unfold StillOpen at isOpen
  unfold Balanced
  omega

theorem Closes.shortest {count : Nat} (closes : Closes opening closing 0 tokens count) :
    ShortestGroup opening closing tokens count where
  pos := closes.pos
  within := closes.within
  balanced := (Nat.zero_add _).symm.trans closes.closed
  shortest fewer pos less := (closes.before fewer pos less).not_balanced

/-! ## One token -/

private theorem countKind_cons (kind : TokenKind) (token : Token) (tokens : List Token) :
    countKind kind (token :: tokens) =
      countKind kind tokens + if token.kind = kind then 1 else 0 := by
  simp only [countKind, List.countP_cons, beq_iff_eq]

/-- Only a closing bracket ends a group. -/
private theorem closing_of_depthAfter (isOpen : 0 < depth)
    (ends : depthAfter opening closing token.kind depth = 0) :
    token.kind ≠ opening ∧ token.kind = closing := by
  unfold depthAfter at ends
  split at ends
  next => omega
  next notOpening =>
    split at ends
    next isClosing => exact ⟨notOpening, isClosing⟩
    next => omega

/-- While a group is open, it is measured by its depth alone. -/
private theorem groupLengthFrom_cons (isOpen : 0 < depth) (token : Token) (tokens : List Token) :
    groupLengthFrom opening closing depth (token :: tokens) =
      if depthAfter opening closing token.kind depth = 0 then some 1
      else (groupLengthFrom opening closing (depthAfter opening closing token.kind depth)
        tokens).map (· + 1) := by
  rw [groupLengthFrom]
  by_cases ends : depthAfter opening closing token.kind depth = 0
  · -- The measure asks for a closing bracket too, but no other token ends an open group.
    obtain ⟨notOpening, isClosing⟩ := closing_of_depthAfter isOpen ends
    simp only [ends, ite_true]
    exact if_pos ⟨notOpening, isClosing, trivial⟩
  · simp only [ends, and_false, ite_false]

/-- An opening bracket is the first token of its group. -/
theorem groupLength?_cons (isOpening : token.kind = opening) (tokens : List Token) :
    groupLength? opening closing (token :: tokens) =
      (groupLengthFrom opening closing 1 tokens).map (· + 1) := by
  simp only [groupLength?, groupLengthFrom, isOpening, depthAfter, ne_eq, not_true_eq_false,
    false_and, ite_true, ite_false, Nat.zero_add]

section Depth

variable (distinct : opening ≠ closing)
include distinct

/-- What a token adds to the depth is what it adds to the brackets counted. -/
private theorem depthAfter_balance (counts : 0 < depth ∨ token.kind = opening)
    (tokens : List Token) : depth + countKind opening (token :: tokens) + countKind closing tokens =
      depthAfter opening closing token.kind depth + countKind opening tokens +
        countKind closing (token :: tokens) := by
  rw [countKind_cons, countKind_cons, depthAfter]
  by_cases isOpening : token.kind = opening
  · simp only [isOpening, distinct, ite_true, ite_false]
    omega
  · by_cases isClosing : token.kind = closing
    · -- The group is open, so there is a depth to take one from.
      have isOpen : 0 < depth := counts.resolve_right isOpening
      simp only [isClosing, distinct.symm, ite_true, ite_false]
      omega
    · simp only [isOpening, isClosing, ite_false]
      omega

private theorem stillOpen_cons (counts : 0 < depth ∨ token.kind = opening) :
    StillOpen opening closing depth (token :: tokens) ↔
      StillOpen opening closing (depthAfter opening closing token.kind depth) tokens := by
  have balance := depthAfter_balance distinct counts tokens
  unfold StillOpen
  omega

/-! ## Measuring -/

/-- If the group is open behind a token, what leaves it open there does so before the token. -/
theorem StillOpen.cons (counts : 0 < depth ∨ token.kind = opening)
    (isOpen : 0 < depthAfter opening closing token.kind depth) {count : Nat}
    (rest : ∀ fewer, 0 < fewer → fewer < count →
      StillOpen opening closing (depthAfter opening closing token.kind depth) (tokens.take fewer)) :
    ∀ fewer, 0 < fewer → fewer < count + 1 →
      StillOpen opening closing depth ((token :: tokens).take fewer) := by
  intro fewer pos less
  -- The first token alone leaves the group open, and more tokens do by `rest`.
  cases fewer with
  | zero => omega
  | succ fewer =>
    rw [List.take_succ_cons, stillOpen_cons distinct counts]
    cases fewer with
    | zero => exact isOpen
    | succ fewer => exact rest _ (Nat.succ_pos _) (by omega)

theorem Closes.cons {count : Nat} (counts : 0 < depth ∨ token.kind = opening)
    (isOpen : 0 < depthAfter opening closing token.kind depth)
    (closes : Closes opening closing (depthAfter opening closing token.kind depth) tokens count) :
    Closes opening closing depth (token :: tokens) (count + 1) where
  pos := Nat.succ_pos _
  within := Nat.succ_le_succ closes.within
  closed := by
    have balance := depthAfter_balance distinct counts (tokens.take count)
    have closed := closes.closed
    rw [List.take_succ_cons]
    omega
  before := StillOpen.cons distinct counts isOpen closes.before

/-- A token that takes an open group to depth zero closes it. -/
theorem Closes.one (isOpen : 0 < depth)
    (ends : depthAfter opening closing token.kind depth = 0) (tokens : List Token) :
    Closes opening closing depth (token :: tokens) 1 where
  pos := Nat.one_pos
  within := Nat.succ_le_succ (Nat.zero_le _)
  closed := by
    have counts : 0 < depth ∨ token.kind = opening := .inl isOpen
    have balance := depthAfter_balance distinct counts []
    have none (kind : TokenKind) : countKind kind [] = 0 := rfl
    rw [List.take_succ_cons, List.take_zero]
    simp only [ends, none] at balance
    omega
  before fewer pos less := by omega

/-- What the measure of an open group says. -/
theorem groupLengthFrom_closes (tokens : List Token) (isOpen : 0 < depth) {count : Nat}
    (measured : groupLengthFrom opening closing depth tokens = some count) :
    Closes opening closing depth tokens count := by
  induction tokens generalizing depth count with
  | nil => cases measured
  | cons token tokens ih =>
    rw [groupLengthFrom_cons isOpen] at measured
    split at measured
    next ends =>
      cases measured
      exact .one distinct isOpen ends tokens
    -- The depth is not zero yet, so the group ends where it does one token later.
    next goesOn =>
      obtain ⟨further, isFurther, rfl⟩ := Option.map_eq_some_iff.mp measured
      have stays := Nat.pos_of_ne_zero goesOn
      exact .cons distinct (.inl isOpen) stays (ih stays isFurther)

/-- An open group without a measure is never closed. -/
theorem groupLengthFrom_open (tokens : List Token) (isOpen : 0 < depth)
    (endless : groupLengthFrom opening closing depth tokens = none) (count : Nat) :
    StillOpen opening closing depth (tokens.take count) := by
  induction tokens generalizing depth count with
  | nil => rwa [List.take_nil]
  | cons token tokens ih =>
    rw [groupLengthFrom_cons isOpen] at endless
    split at endless
    next => cases endless
    next goesOn =>
      have stays := Nat.pos_of_ne_zero goesOn
      cases count with
      | zero => exact isOpen
      | succ count =>
        rw [List.take_succ_cons, stillOpen_cons distinct (.inl isOpen)]
        exact ih stays (Option.map_eq_none_iff.mp endless) count

end Depth

/-! ## Reading -/

/-- The tokens of an open group: up to the one that closes it, or all of them. -/
def groupEnd (opening closing : TokenKind) (depth : Nat) (tokens : List Token) : Nat :=
  (groupLengthFrom opening closing depth tokens).getD tokens.length

private theorem groupEnd_cons (isOpen : 0 < depth) (token : Token) (tokens : List Token) :
    groupEnd opening closing depth (token :: tokens) =
      (if depthAfter opening closing token.kind depth = 0 then 0
      else groupEnd opening closing (depthAfter opening closing token.kind depth) tokens) + 1 := by
  rw [groupEnd, groupLengthFrom_cons isOpen]
  split
  next => rfl
  next =>
    rw [groupEnd]
    cases groupLengthFrom opening closing (depthAfter opening closing token.kind depth) tokens <;>
      rfl

namespace Parser

variable {c : Cursor}

private theorem run_advanceBy_succ (count : Nat) (c : Cursor) :
    advanceBy (count + 1) c = advanceBy count c.next := rfl

private theorem rest_advanceBy (count : Nat) (c : Cursor) :
    (advanceBy count c).2.rest = c.rest.drop count := by
  induction count generalizing c with
  | zero => rfl
  | succ count ih =>
    rw [run_advanceBy_succ, ih]
    cases found : c.rest with
    | nil => simp [Cursor.next, found]
    | cons token rest => rw [c.rest_next found, List.drop_succ_cons]

private theorem skipGroupStep_reads {rest : List Token} (isOpen : 0 < depth)
    (found : c.rest = token :: rest) :
    skipGroupStep opening closing depth c =
      (some (depthAfter opening closing token.kind depth), c.next) := by
  simp only [skipGroupStep, Nat.ne_of_gt isOpen, ite_false, run_bind, advance?, found,
    List.head?_cons, run_pure]

/-- Skipping an open group reads up to its end. -/
private theorem skipGroup_open (isOpen : 0 < depth) (c : Cursor) :
    (iterate (skipGroupStep opening closing) depth c).2 =
      (advanceBy (groupEnd opening closing depth c.rest) c).2 := by
  -- The induction is on the tokens left; each step reads one and carries the depth along.
  generalize rest : c.rest = tokens
  induction tokens generalizing depth c with
  | nil =>
    rw [iterate_of_none ((skipGroupStep_winds opening closing depth).declines c rest)]
    rfl
  | cons token tokens ih =>
    rw [iterate_eq (skipGroupStep_winds opening closing), run_bind,
      skipGroupStep_reads isOpen rest, groupEnd_cons isOpen, run_advanceBy_succ]
    dsimp only
    split
    next ends =>
      -- Behind its last token the group is skipped.
      rw [ends, iterate_of_none rfl]
      rfl
    next goesOn => exact ih (Nat.pos_of_ne_zero goesOn) c.next (c.rest_next rest)

/-- So does reading it as text. -/
private theorem groupText_open (group : GroupText) (incomplete : group.complete = false)
    (isOpen : 0 < group.depth) (c : Cursor) :
    (iterate (groupTextStep opening closing) group c).2 =
      (advanceBy (groupEnd opening closing group.depth c.rest) c).2 := by
  generalize rest : c.rest = tokens
  induction tokens generalizing group c with
  | nil =>
    rw [iterate_of_none ((groupTextStep_winds opening closing group).declines c rest)]
    rfl
  | cons token tokens ih =>
    obtain ⟨next, read, depth, complete⟩ :=
      groupTextStep_reads opening closing group incomplete rest
    rw [iterate_eq (groupTextStep_winds opening closing), run_bind, read, groupEnd_cons isOpen,
      run_advanceBy_succ]
    dsimp only
    rw [← depth]
    split
    next ends =>
      -- The step after the last token sees that the group is complete, and reads nothing.
      have stops : groupTextStep opening closing next c.next = (none, c.next) := by
        simp only [groupTextStep, complete, ends, beq_self_eq_true, ite_true, run_pure]
      rw [iterate_of_none stops]
      rfl
    next goesOn =>
      have incomplete : next.complete = false := by
        rw [complete]
        exact beq_eq_false_iff_ne.mpr goesOn
      exact ih next incomplete (Nat.pos_of_ne_zero goesOn) c.next (c.rest_next rest)

/-- The end of the group at the cursor, from behind its opening bracket. -/
private theorem groupEnd_opening (isOpening : token.kind = opening)
    (found : c.rest = token :: tokens) : (groupLength? opening closing c.rest).getD c.left =
      groupEnd opening closing 1 c.next.rest + 1 := by
  rw [c.rest_next found, Cursor.left, found, groupLength?_cons isOpening, groupEnd]
  cases groupLengthFrom opening closing 1 tokens <;> rfl

theorem skipGroup_toEnd (atIt : c.atKind opening = true) :
    (skipGroup opening closing c).2 =
      (advanceBy ((groupLength? opening closing c.rest).getD c.left) c).2 := by
  obtain ⟨token, tokens, found, isOpening⟩ := c.exists_of_atKind atIt
  have entered : (skipGroup opening closing c).2 =
      (iterate (skipGroupStep opening closing) 1 c.next).2 := by
    simp only [skipGroup, run_bind, run_get, atIt, ite_true, run_advance]
    rfl
  rw [entered, skipGroup_open Nat.one_pos, groupEnd_opening isOpening found,
    run_advanceBy_succ]

theorem groupText_toEnd (atIt : c.atKind opening = true) :
    (groupText opening closing c).2 =
      (advanceBy ((groupLength? opening closing c.rest).getD c.left) c).2 := by
  obtain ⟨token, tokens, found, isOpening⟩ := c.exists_of_atKind atIt
  obtain ⟨next, read, depth, complete⟩ :=
    groupTextStep_reads opening closing ⟨0, "", c.here, false⟩ rfl found
  -- The opening itself is the first step, which leaves the depth at one.
  have one : next.depth = 1 := by rw [depth, isOpening, depthAfter, if_pos rfl]
  have incomplete : next.complete = false := by rw [complete, one]; rfl
  have entered : (groupText opening closing c).2 =
      (iterate (groupTextStep opening closing) next c.next).2 := by
    simp only [groupText, run_bind, run_get, run_pure]
    rw [iterate_eq (groupTextStep_winds opening closing), run_bind, read]
  rw [entered, groupText_open next incomplete (one ▸ Nat.one_pos), one,
    groupEnd_opening isOpening found, run_advanceBy_succ]

/-- The parser reads this many tokens and does nothing else to the cursor. -/
structure Advances {α : Type} (parser : Parser α) (c : Cursor) (count : Nat) : Prop where
  rest : (parser c).2.rest = c.rest.drop count
  cursor : (parser c).2 = (advanceBy count c).2

theorem Advances.of_cursor {α : Type} {parser : Parser α} {count : Nat}
    (cursor : (parser c).2 = (advanceBy count c).2) : parser.Advances c count :=
  ⟨by rw [cursor, rest_advanceBy], cursor⟩

end Parser

open Source.Parser

/-- The measure of a group is the length of its shortest balanced part, and skipping the group
and reading it as text both stop there. A group without a measure has no such part, and both
take all tokens that are left. -/
theorem groups_agree (opening closing : TokenKind) (distinct : opening ≠ closing) (c : Cursor)
    (atIt : c.atKind opening = true) :
    (∀ count, groupLength? opening closing c.rest = some count →
      ShortestGroup opening closing c.rest count ∧
        (skipGroup opening closing).Advances c count ∧
        (groupText opening closing).Advances c count) ∧
      (groupLength? opening closing c.rest = none →
        (∀ count, 0 < count → count ≤ c.left → ¬Balanced opening closing (c.rest.take count)) ∧
          (skipGroup opening closing).Advances c c.left ∧
          (groupText opening closing).Advances c c.left) := by
  obtain ⟨token, tokens, found, isOpening⟩ := c.exists_of_atKind atIt
  -- Only the first token is read at depth zero, and it opens the group.
  have one : depthAfter opening closing token.kind 0 = 1 := if_pos isOpening
  have isOpen : 0 < depthAfter opening closing token.kind 0 := by omega
  have skipped : (skipGroup opening closing c).2 = _ := skipGroup_toEnd atIt
  have read : (groupText opening closing c).2 = _ := groupText_toEnd atIt
  constructor
  · intro count measured
    rw [measured, Option.getD_some] at skipped read
    refine ⟨?_, .of_cursor skipped, .of_cursor read⟩
    rw [found, groupLength?_cons isOpening] at measured
    obtain ⟨further, isFurther, rfl⟩ := Option.map_eq_some_iff.mp measured
    rw [← one] at isFurther
    have closes := groupLengthFrom_closes distinct tokens isOpen isFurther
    rw [found]
    exact (closes.cons distinct (.inr isOpening) isOpen).shortest
  · intro endless
    rw [endless, Option.getD_none] at skipped read
    refine ⟨fun count pos _ => ?_, .of_cursor skipped, .of_cursor read⟩
    rw [found, groupLength?_cons isOpening, ← one] at endless
    have never := groupLengthFrom_open distinct tokens isOpen (Option.map_eq_none_iff.mp endless)
    have stillOpen := StillOpen.cons distinct (.inr isOpening) isOpen
      (fun fewer _ _ => never fewer) count pos (Nat.lt_succ_self count)
    rw [found]
    exact stillOpen.not_balanced

/-- A group with another one in it, and one that is never closed. -/
theorem groups_agree_nested :
    (Cursor.ofText "(a, (b) c) -> d" 0).atKind .openParen = true ∧
      groupLength? .openParen .closeParen (Cursor.ofText "(a, (b) c) -> d" 0).rest = some 8 ∧
      ShortestGroup .openParen .closeParen (Cursor.ofText "(a, (b) c) -> d" 0).rest 8 ∧
      (skipGroup .openParen .closeParen).Advances (.ofText "(a, (b) c) -> d" 0) 8 ∧
      (groupText .openParen .closeParen).Advances (.ofText "(a, (b) c) -> d" 0) 8 ∧
      (Cursor.ofText "[b[0] a" 0).atKind .openBracket = true ∧
      groupLength? .openBracket .closeBracket (Cursor.ofText "[b[0] a" 0).rest = none ∧
      (∀ count, 0 < count → count ≤ 6 →
        ¬Balanced .openBracket .closeBracket ((Cursor.ofText "[b[0] a" 0).rest.take count)) ∧
      (skipGroup .openBracket .closeBracket).Advances (.ofText "[b[0] a" 0) 6 ∧
      (groupText .openBracket .closeBracket).Advances (.ofText "[b[0] a" 0) 6 := by
  have atGroup : (Cursor.ofText "(a, (b) c) -> d" 0).atKind .openParen = true := by
    decide +kernel
  have measured : groupLength? .openParen .closeParen (Cursor.ofText "(a, (b) c) -> d" 0).rest =
      some 8 := by decide +kernel
  have atOpen : (Cursor.ofText "[b[0] a" 0).atKind .openBracket = true := by decide +kernel
  have endless : groupLength? .openBracket .closeBracket (Cursor.ofText "[b[0] a" 0).rest =
      none := by decide +kernel
  have six : (Cursor.ofText "[b[0] a" 0).left = 6 := by decide +kernel
  obtain ⟨shortest, skipped, read⟩ :=
    (groups_agree .openParen .closeParen (by decide) _ atGroup).1 8 measured
  have never := (groups_agree .openBracket .closeBracket (by decide) _ atOpen).2 endless
  rw [six] at never
  exact ⟨atGroup, measured, shortest, skipped, read, atOpen, endless, never⟩

end MethodContracts.Source
