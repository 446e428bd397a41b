import MethodContracts.Proofs.Source.Relocation
import MethodContracts.Proofs.Source.Resuming

/-!
# Tokens of a changed text

What is put in behind a token, and begins with white space, leaves the tokens in front of it as
they are; and a gap that is put in front of a token moves it with all that follows. So a gap
between two tokens may be made longer, and more text may stand behind the last token.
-/
namespace MethodContracts.Source

open Text

namespace Scans

variable {offset offset' : Nat} {cs rest rest' blank : List Char} {tokens tokens' : List Token}

theorem unique (scans : Scans offset cs tokens) (scans' : Scans offset cs tokens') :
    tokens = tokens' := by
  induction scans generalizing tokens' with
  | last found =>
    cases scans' with
    | last => rfl
    | token found' others' => cases found.symm.trans found'
  | token found others ih =>
    cases scans' with
    | last found' => cases found.symm.trans found'
    | token found' others' =>
      cases found.symm.trans found'
      rw [ih others']

theorem tokens_eq {text : String} (scans : Scans offset text.toList tokens) :
    Source.tokens text offset = tokens := (tokens_scans text offset).unique scans

/-- At another place the text has the same tokens, moved there. -/
theorem moved {move : Nat → Nat} (shift : ∀ n, move (offset + n) = offset' + n)
    (scans : Scans offset cs tokens) : Scans offset' cs (tokens.map (Token.moved move)) := by
  induction scans generalizing offset' with
  | last found => exact .last found
  | @token offset cs blank rest c tokens found others ih =>
    -- The shift is uniform from the offset on, so also behind the first token.
    have start : move (offset + byteLength blank) = offset' + byteLength blank := shift _
    have stop : move (offset + byteLength blank + byteLength (lexeme c rest).text) =
        offset' + byteLength blank + byteLength (lexeme c rest).text := by
      rw [Nat.add_assoc, shift, Nat.add_assoc]
    have moved : Token.moved move ((lexeme c rest).token (offset + byteLength blank)) =
        (lexeme c rest).token (offset' + byteLength blank) := by
      simp only [Token.moved, Lexeme.token, Span.moved, start, stop]
    rw [List.map_cons, moved]
    refine .token found (ih fun n => ?_)
    rw [Nat.add_assoc, Nat.add_assoc, shift, Nat.add_assoc, Nat.add_assoc]

/-- A gap in front of a text moves its tokens. -/
theorem gap_append (isGap : Gap blank) (scans : Scans (offset + byteLength blank) cs tokens) :
    Scans offset (blank ++ cs) tokens := by
  cases scans with
  | last found => exact .last (by rw [isGap.gap_append, found]; rfl)
  | @token _ _ inner rest c tokens found others =>
    have found' : gap (blank ++ cs) = (blank ++ inner, c :: rest) := by
      rw [isGap.gap_append, found]
      rfl
    have place : offset + byteLength blank + byteLength inner =
        offset + byteLength (blank ++ inner) := by
      rw [byteLength_append, Nat.add_assoc]
    rw [place] at others ⊢
    exact .token found' others

/-- The gap in front of the first token may be taken off. -/
theorem behind_gap {token : Token} (scans : Scans offset cs (token :: tokens)) :
    ∃ blank cs', cs = blank ++ cs' ∧ Gap blank ∧ cs' ≠ [] ∧
      token.span.start = offset + byteLength blank ∧
      Scans (offset + byteLength blank) cs' (token :: tokens) := by
  cases scans with
  | @token _ _ blank rest c _ found others =>
    obtain ⟨whole, isGap⟩ := gap_cut found
    have solid := gap_solid found
    exact ⟨blank, c :: rest, whole, isGap, List.cons_ne_nil _ _, rfl, .token solid others⟩

theorem eq_nil (scans : Scans offset [] tokens) : tokens = [] := by
  cases scans with
  | last => rfl
  | token found => cases found

/-- Where the tokens of a text end, at the end of the last one. -/
def stop (offset : Nat) (tokens : List Token) : Nat :=
  (tokens.getLast?.map (·.span.stop)).getD offset

theorem stop_cons (token : Token) (tokens : List Token) :
    stop offset (token :: tokens) = stop token.span.stop tokens := by
  rw [stop, stop, List.getLast?_cons]
  cases tokens.getLast? <;> rfl

/-- A token stays if the text behind it goes on in another way. At the end of a text it has
to be one that needs no end. -/
theorem token_resumes {c : Char} (found : gap cs = (blank, c :: rest))
    (resumes : Resumes (lexeme c rest).rest rest')
    (closes : (lexeme c rest).rest = [] →
      (lexeme c rest).kind = .closeBrace ∨ (lexeme c rest).kind = .semicolon)
    (others : Scans (offset + byteLength (blank ++ (lexeme c rest).text)) rest' tokens) :
    Scans offset (blank ++ (lexeme c rest).text ++ rest')
      ((lexeme c rest).token (offset + byteLength blank) :: tokens) := by
  have isGap := (gap_cut found).2
  have solid := gap_solid found
  obtain ⟨isText, whole⟩ := lexeme_text c rest
  -- The token stays the one it was, whatever follows it now.
  have kept : lexeme c ((lexeme c rest).text.tail ++ rest') =
      { lexeme c rest with rest := rest' } := by
    by_cases atEnd : (lexeme c rest).rest = []
    · exact lexeme_closed (closes atEnd) rest'
    · exact lexeme_resumes resumes atEnd
  have resumed := resumes.append (lexeme c rest).text.tail
  rw [whole] at resumed
  -- The gap before it stays too, since the token starts with the same character.
  have begins : gap (blank ++ (lexeme c rest).text ++ rest') =
      (blank, c :: ((lexeme c rest).text.tail ++ rest')) := by
    rw [isText, List.append_assoc, isGap.gap_append, List.cons_append,
      gap_resumes solid resumed, keep, List.append_nil, List.tail_cons]
  rw [byteLength_append, ← Nat.add_assoc] at others
  have others' : Scans (offset + byteLength blank +
      byteLength (lexeme c ((lexeme c rest).text.tail ++ rest')).text)
      (lexeme c ((lexeme c rest).text.tail ++ rest')).rest tokens := by
    rw [kept]
    exact others
  have scanned := Scans.token begins others'
  rwa [kept] at scanned

/-- Behind its first tokens a text may go on in another way: if it goes on as before, or as
before for a while and then with white space, these tokens stay. -/
theorem front {first second : List Token} (scans : Scans offset cs (first ++ second)) :
    ∃ front rest, cs = front ++ rest ∧ offset + byteLength front = stop offset first ∧
      Scans (offset + byteLength front) rest second ∧
      ∀ rest' second', Resumes rest rest' →
        (rest = [] → ∀ last ∈ first.getLast?, last.kind = .closeBrace ∨ last.kind = .semicolon) →
        Scans (offset + byteLength front) rest' second' →
        Scans offset (front ++ rest') (first ++ second') := by
  -- What changes behind the front is unknown to it, so it is shown for every way to go on.
  induction first generalizing offset cs with
  | nil => exact ⟨[], cs, rfl, rfl, scans, fun _ _ _ _ scans' => scans'⟩
  | cons token first ih =>
    cases scans with
    | @token _ _ blank rest c _ found others =>
      obtain ⟨front, left, split, stops, later, change⟩ := ih others
      have whole := gap_lexeme found
      rw [split, ← List.append_assoc] at whole
      have place : offset + byteLength blank + byteLength (lexeme c rest).text + byteLength front =
          offset + byteLength (blank ++ (lexeme c rest).text ++ front) := by
        rw [byteLength_append, byteLength_append, Nat.add_assoc, Nat.add_assoc, Nat.add_assoc]
      rw [place] at stops later change
      refine ⟨_, left, whole, (stop_cons _ first).symm ▸ stops, later,
        fun rest' second' resumes closes scans' => ?_⟩
      rw [List.append_assoc (blank ++ _)]
      refine token_resumes found (split ▸ resumes.append front) (fun atEnd => ?_) ?_
      · rw [atEnd] at split others
        obtain ⟨rfl, -⟩ := List.append_eq_nil_iff.mp others.eq_nil
        exact closes (List.append_eq_nil_iff.mp split.symm).2 _ rfl
      · rw [byteLength_append, ← Nat.add_assoc]
        refine change rest' second' resumes (fun atEnd last member => ?_) scans'
        cases first with
        | nil => cases member
        | cons head tail => exact closes atEnd last (by rwa [List.getLast?_cons_cons])

end Scans

/-! ## A gap is put in -/

/-- Texts are the same up to a byte offset if they begin with as many bytes. -/
private theorem append_byteLength {front front' back back' : List Char}
    (whole : front ++ back = front' ++ back') (same : byteLength front = byteLength front') :
    front = front' ∧ back = back' := by
  rcases List.append_eq_append_iff.mp whole with ⟨between, rfl, rfl⟩ | ⟨between, rfl, rfl⟩
  all_goals
    have empty : between = [] := by
      refine Classical.not_not.mp fun nonempty => ?_
      have := byteLength_pos nonempty
      rw [byteLength_append] at same
      omega
    subst empty
    simp

/-- A token of the text starts directly behind `front`, which the text begins with. -/
def StartsToken (front back : String) : Prop :=
  ∃ token ∈ tokens (front ++ back) 0, token.span.start = byteLength front.toList

/-- The gap begins with white space and is complete. -/
structure Spacing (gap : String) : Prop where
  starts : ∃ c ∈ gap.toList.head?, isBlank c = true
  ended : Gap gap.toList

/-- A gap that begins with white space and is put in front of a token leaves the tokens in
front of it in their places, and moves the others. -/
theorem tokens_insert {front gap back : String} (between : StartsToken front back)
    (spacing : Spacing gap) :
    ∃ before behind, tokens (front ++ back) 0 = before ++ behind ∧
      tokens (front ++ gap ++ back) 0 =
        before ++ behind.map (Token.moved (· + byteLength gap.toList)) := by
  obtain ⟨token, member, start⟩ := between
  -- The token that starts at the border divides the tokens; the gap goes right before it.
  obtain ⟨before, behind, split⟩ := List.append_of_mem member
  have scans := tokens_scans (front ++ back) 0
  rw [split] at scans
  obtain ⟨front', rest, whole, -, later, change⟩ := scans.front
  obtain ⟨inner, back', rfl, isInner, nonempty, place, behindGap⟩ := later.behind_gap
  rw [start, Nat.zero_add, ← byteLength_append] at place
  rw [String.toList_append, ← List.append_assoc] at whole
  obtain ⟨isFront, rfl⟩ := append_byteLength whole place
  refine ⟨before, token :: behind, split, Scans.tokens_eq ?_⟩
  obtain ⟨c, blank, isGap, isBlank⟩ : ∃ c blank, gap.toList = c :: blank ∧ isBlank c = true := by
    obtain ⟨c, first, isBlank⟩ := spacing.starts
    obtain ⟨blank, isGap⟩ := List.head?_eq_some_iff.mp first
    exact ⟨c, blank, isGap, isBlank⟩
  -- What is inserted starts with a blank, so the tokens in front stay as they are.
  have resumes : Resumes (inner ++ back.toList) (inner ++ (gap.toList ++ back.toList)) :=
    ⟨inner, back.toList, c, blank ++ back.toList, rfl, by rw [isGap]; rfl, isBlank⟩
  have text : (front ++ gap ++ back).toList =
      front' ++ (inner ++ (gap.toList ++ back.toList)) := by
    simp only [String.toList_append, isFront, List.append_assoc]
  rw [text]
  refine change _ _ resumes (fun none => absurd (List.append_eq_nil_iff.mp none).2 nonempty) ?_
  refine .gap_append isInner (.gap_append spacing.ended (behindGap.moved fun n => ?_))
  omega

end MethodContracts.Source
