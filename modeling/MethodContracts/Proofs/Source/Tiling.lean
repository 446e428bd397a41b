import Mathlib.Data.List.Infix
import MethodContracts.Source.Scan

/-!
# Tokens tile their text

A text is a sequence of gaps and tokens, and nothing of it is lost or read twice. The
grammar of gaps stands first, on its own; the scanners are then shown to cut along it.
-/
namespace MethodContracts.Text

/-- A byte offset between two characters of a text that starts at `offset`, or at an end of it. -/
def IsBoundary (offset : Nat) (cs : List Char) (place : Nat) : Prop :=
  ∃ front back, cs = front ++ back ∧ place = offset + byteLength front

/-- These are the characters of a text, which starts at `offset`, at this span. -/
def IsSlice (offset : Nat) (cs : List Char) (span : Span) (piece : List Char) : Prop :=
  ∃ front back, cs = front ++ piece ++ back ∧ span.start = offset + byteLength front ∧
    span.stop = offset + byteLength (front ++ piece)

section Boundary

variable {offset place : Nat} {cs piece : List Char} {span : Span}

theorem IsBoundary.within (boundary : IsBoundary offset cs place) :
    offset ≤ place ∧ place ≤ offset + byteLength cs := by
  obtain ⟨front, back, rfl, rfl⟩ := boundary
  rw [byteLength_append]
  omega

theorem isBoundary_start (offset : Nat) (cs : List Char) : IsBoundary offset cs offset :=
  ⟨[], cs, rfl, rfl⟩

theorem isBoundary_stop (offset : Nat) (cs : List Char) :
    IsBoundary offset cs (offset + byteLength cs) :=
  ⟨cs, [], (List.append_nil cs).symm, rfl⟩

theorem IsSlice.boundaries (slice : IsSlice offset cs span piece) :
    IsBoundary offset cs span.start ∧ IsBoundary offset cs span.stop := by
  obtain ⟨front, back, rfl, start, stop⟩ := slice
  refine ⟨⟨front, piece ++ back, ?_, start⟩, ⟨front ++ piece, back, rfl, stop⟩⟩
  rw [List.append_assoc]

theorem byteLength_pos (nonempty : cs ≠ []) : 0 < byteLength cs := by
  cases cs with
  | nil => exact absurd rfl nonempty
  | cons c rest =>
    have := c.utf8Size_pos
    rw [byteLength]
    omega

theorem IsSlice.start_lt_stop (slice : IsSlice offset cs span piece) (nonempty : piece ≠ []) :
    span.start < span.stop := by
  obtain ⟨front, back, rfl, start, stop⟩ := slice
  have := byteLength_pos nonempty
  rw [byteLength_append] at stop
  omega

/-- A slice of what follows `front` is a slice of the whole. -/
theorem IsSlice.after (front : List Char)
    (slice : IsSlice (offset + byteLength front) cs span piece) :
    IsSlice offset (front ++ cs) span piece := by
  obtain ⟨skipped, back, rfl, start, stop⟩ := slice
  refine ⟨front ++ skipped, back, by simp only [List.append_assoc], ?_, ?_⟩
  · rw [start, byteLength_append, Nat.add_assoc]
  · rw [stop, List.append_assoc, byteLength_append front, Nat.add_assoc]

end Boundary

end MethodContracts.Text

namespace MethodContracts.Source

open Text

/-! ## The grammar of gaps -/

/-- White space of one character, or a comment that has ended. -/
inductive GapPiece : List Char → Prop where
  | blank {c : Char} (isBlank : isBlank c = true) : GapPiece [c]
  | line {comment : List Char} (noFeed : '\n' ∉ comment) :
    GapPiece ('/' :: '/' :: comment ++ ['\n'])
  | block {comment : List Char} (noEnd : ¬['*', '/'] <:+: comment) :
    GapPiece ('/' :: '*' :: comment ++ ['*', '/'])

/-- A comment that takes all that is left of the text. -/
inductive OpenComment : List Char → Prop where
  | line {comment : List Char} (noFeed : '\n' ∉ comment) : OpenComment ('/' :: '/' :: comment)
  | block {comment : List Char} (noEnd : ¬['*', '/'] <:+: comment) :
    OpenComment ('/' :: '*' :: comment)

/-- White space and comments that have ended. -/
inductive Gap : List Char → Prop where
  | nil : Gap []
  | cons {piece rest : List Char} (first : GapPiece piece) (others : Gap rest) : Gap (piece ++ rest)

/-- What may stand behind the last token: a gap, and perhaps a comment without an end. -/
inductive LastGap : List Char → Prop where
  | ended {gap : List Char} (ended : Gap gap) : LastGap gap
  | opened {gap comment : List Char} (ended : Gap gap) (opened : OpenComment comment) :
    LastGap (gap ++ comment)

/-- The tokens, with gaps before, between and behind them, are the text from byte `offset`. -/
inductive Tiles : Nat → List Char → List Token → Prop where
  | last {offset : Nat} {cs : List Char} (gap : LastGap cs) : Tiles offset cs []
  | token {offset : Nat} {cs blank rest : List Char} {token : Token} {tokens : List Token}
    (whole : cs = blank ++ token.text.toList ++ rest) (gap : Gap blank) (nonempty : token.text ≠ "")
    (start : token.span.start = offset + byteLength blank)
    (stop : token.span.stop = token.span.start + byteLength token.text.toList)
    (others : Tiles token.span.stop rest tokens) : Tiles offset cs (token :: tokens)

theorem LastGap.cons {piece rest : List Char} (first : GapPiece piece) (others : LastGap rest) :
    LastGap (piece ++ rest) := by
  cases others with
  | ended gap => exact .ended (.cons first gap)
  | opened gap comment =>
    rw [← List.append_assoc]
    exact .opened (.cons first gap) comment

theorem LastGap.comment {cs : List Char} (opened : OpenComment cs) : LastGap cs :=
  .opened .nil opened

/-! ## Gaps are found -/

/-- The rest of a gap from a place in it, if `Ending` holds of what follows the comment there. -/
def GapPlace.Rest (Ending : List Char → Prop) : GapPlace → List Char → Prop
  | .between, cs => Ending cs
  | .line, cs => ∃ comment rest, '\n' ∉ comment ∧ Ending rest ∧ cs = comment ++ '\n' :: rest
  | .block, cs =>
    ∃ comment rest, ¬['*', '/'] <:+: comment ∧ Ending rest ∧ cs = comment ++ '*' :: '/' :: rest

/-- The comment at a place does not end. -/
def GapPlace.Open : GapPlace → List Char → Prop
  | .between, _ => False
  | .line, cs => '\n' ∉ cs
  | .block, cs => ¬['*', '/'] <:+: cs

namespace GapPlace

variable {Ending : List Char → Prop} {c : Char} {cs : List Char}

private theorem not_infix_cons {comment : List Char} (noEnd : ¬['*', '/'] <:+: comment)
    (noMark : ∀ later, c = '*' → comment = '/' :: later → False) :
    ¬['*', '/'] <:+: c :: comment := by
  rw [List.infix_cons_iff]
  rintro (⟨later, mark⟩ | inside)
  · simp only [List.cons_append, List.nil_append, List.cons.injEq] at mark
    exact noMark later mark.1.symm mark.2.symm
  · exact noEnd inside

theorem Rest.line_cons (notFeed : c ≠ '\n') (rest : Rest Ending .line cs) :
    Rest Ending .line (c :: cs) := by
  obtain ⟨comment, later, noFeed, ending, rfl⟩ := rest
  refine ⟨c :: comment, later, ?_, ending, rfl⟩
  simp only [List.mem_cons, not_or]
  exact ⟨fun same => notFeed same.symm, noFeed⟩

theorem Rest.block_cons (noMark : ∀ later, c = '*' → cs = '/' :: later → False)
    (rest : Rest Ending .block cs) : Rest Ending .block (c :: cs) := by
  obtain ⟨comment, later, noEnd, ending, rfl⟩ := rest
  refine ⟨c :: comment, later, not_infix_cons noEnd fun more star slash => ?_, ending, rfl⟩
  exact noMark (more ++ '*' :: '/' :: later) star (by rw [slash, List.cons_append])

/-- A comment that is begun and ended continues what `Ending` holds of. -/
theorem Rest.of_line
    (continues : ∀ {piece rest}, GapPiece piece → Ending rest → Ending (piece ++ rest))
    (rest : Rest Ending .line cs) : Ending ('/' :: '/' :: cs) := by
  obtain ⟨comment, later, noFeed, ending, rfl⟩ := rest
  have begun := continues (.line noFeed) ending
  simpa only [List.cons_append, List.append_assoc, List.nil_append] using begun

theorem Rest.of_block
    (continues : ∀ {piece rest}, GapPiece piece → Ending rest → Ending (piece ++ rest))
    (rest : Rest Ending .block cs) : Ending ('/' :: '*' :: cs) := by
  obtain ⟨comment, later, noEnd, ending, rfl⟩ := rest
  have begun := continues (.block noEnd) ending
  simpa only [List.cons_append, List.append_assoc, List.nil_append] using begun

end GapPlace

theorem gapFrom_append (place : GapPlace) (cs : List Char) :
    (gapFrom place cs).1 ++ (gapFrom place cs).2 = cs := by
  fun_induction gapFrom place cs <;> simp only [keep, List.cons_append, List.nil_append, *]

/-- In a block comment, what is passed begins with a slash only if the text does. -/
private theorem gapFrom_block_slash {rest later : List Char}
    (slash : (gapFrom .block rest).1 = '/' :: later) :
    rest = '/' :: (later ++ (gapFrom .block rest).2) := by
  have whole := gapFrom_append .block rest
  rw [slash] at whole
  exact whole.symm

/-- What is passed of a gap before more text follows. -/
private theorem gapFrom_ended (place : GapPlace) (cs : List Char)
    (more : (gapFrom place cs).2 ≠ []) : place.Rest Gap (gapFrom place cs).1 := by
  fun_induction gapFrom place cs with
  | case1 => exact absurd rfl more
  | case2 rest ih => exact (ih more).of_line .cons
  | case3 rest ih => exact (ih more).of_block .cons
  | case4 c rest _ _ blank ih => exact .cons (.blank blank) (ih more)
  | case5 => exact .nil
  -- In a line comment only the line feed ends it.
  | case6 c rest ih =>
    by_cases feed : c = '\n'
    · rw [if_pos feed] at ih more ⊢
      exact ⟨[], _, List.not_mem_nil, ih more, by rw [feed]; rfl⟩
    · rw [if_neg feed] at ih more ⊢
      exact (ih more).line_cons feed
  | case7 rest ih => exact ⟨[], _, by decide, ih more, rfl⟩
  | case8 c rest noMark ih =>
    exact (ih more).block_cons fun _ star slash => noMark _ star (gapFrom_block_slash slash)

/-- What is passed of a gap up to the end of the text. -/
theorem gapFrom_last (place : GapPlace) (cs : List Char) (ends : (gapFrom place cs).2 = []) :
    place.Rest LastGap (gapFrom place cs).1 ∨ place.Open (gapFrom place cs).1 := by
  fun_induction gapFrom place cs with
  -- The text ends here: between comments that is the end of a gap, inside one it is left open.
  | case1 place =>
    cases place with
    | between => exact .inl (.ended .nil)
    | line => exact .inr List.not_mem_nil
    | block => exact .inr (List.infix_nil.not.mpr (List.cons_ne_nil _ _))
  | case2 rest ih =>
    rcases ih ends with ended | noFeed
    · exact .inl (ended.of_line .cons)
    · exact .inl (.comment (.line noFeed))
  | case3 rest ih =>
    rcases ih ends with ended | noEnd
    · exact .inl (ended.of_block .cons)
    · exact .inl (.comment (.block noEnd))
  | case4 c rest _ _ blank ih =>
    rcases ih ends with ended | no
    · exact .inl (.cons (.blank blank) ended)
    · exact no.elim
  | case5 c rest => cases ends
  | case6 c rest ih =>
    by_cases feed : c = '\n'
    · rw [if_pos feed] at ih ends ⊢
      rcases ih ends with ended | no
      · exact .inl ⟨[], _, List.not_mem_nil, ended, by rw [feed]; rfl⟩
      · exact no.elim
    · rw [if_neg feed] at ih ends ⊢
      rcases ih ends with ended | noFeed
      · exact .inl (ended.line_cons feed)
      · refine .inr fun member => ?_
        rcases List.mem_cons.mp member with same | later
        · exact feed same.symm
        · exact noFeed later
  | case7 rest ih =>
    rcases ih ends with ended | no
    · exact .inl ⟨[], _, by decide, ended, rfl⟩
    · exact no.elim
  -- Inside a block no star stands in front of a slash.
  | case8 c rest noMark ih =>
    have noSlash : ∀ later, c = '*' → (gapFrom .block rest).1 = '/' :: later → False :=
      fun _ star slash => noMark _ star (gapFrom_block_slash slash)
    rcases ih ends with ended | noEnd
    · exact .inl (ended.block_cons noSlash)
    · exact .inr (GapPlace.not_infix_cons noEnd noSlash)

/-! ## Lexemes are cut off -/

theorem quotedRest_append (quote : Char) (cs : List Char) :
    (quotedRest quote cs).1 ++ (quotedRest quote cs).2 = cs := by
  fun_induction quotedRest quote cs <;> simp only [keep, List.cons_append, List.nil_append, *]

theorem blockRest_append (cs : List Char) : (blockRest cs).1 ++ (blockRest cs).2 = cs := by
  fun_induction blockRest cs <;> simp only [keep, List.cons_append, List.nil_append, *]

/-- A lexeme that begins with `c` and has all of the text but its rest. -/
def Lexeme.CutFrom (found : Lexeme) (c : Char) (rest : List Char) : Prop :=
  found.text ≠ [] ∧ found.text ++ found.rest = c :: rest

private theorem wordLexeme_cut (c : Char) (rest : List Char) :
    (wordLexeme c rest).CutFrom c rest := by
  unfold wordLexeme
  split
  · exact ⟨List.cons_ne_nil _ _, congrArg (c :: ·) List.takeWhile_append_dropWhile⟩
  · split
    · exact ⟨List.cons_ne_nil _ _, congrArg (c :: ·) List.takeWhile_append_dropWhile⟩
    · exact ⟨List.cons_ne_nil _ _, rfl⟩

theorem lexeme_cut (c : Char) (rest : List Char) : (lexeme c rest).CutFrom c rest := by
  unfold lexeme
  split
  all_goals first
    | exact ⟨List.cons_ne_nil _ _, rfl⟩
    | exact wordLexeme_cut _ _
    | exact ⟨List.cons_ne_nil _ _, congrArg (_ :: ·) (quotedRest_append _ _)⟩
    | exact ⟨List.cons_ne_nil _ _, congrArg ('"' :: '"' :: '"' :: ·) (blockRest_append _)⟩

/-! ## Scanning -/

/-- The token that a lexeme at a place is. -/
def Lexeme.token (found : Lexeme) (start : Nat) : Token :=
  ⟨found.kind, String.ofList found.text, ⟨start, start + byteLength found.text⟩⟩

/-- The tokens of a text that starts at a place, however many there are. -/
inductive Scans : Nat → List Char → List Token → Prop where
  | last {offset : Nat} {cs blank : List Char} (found : gap cs = (blank, [])) :
    Scans offset cs []
  | token {offset : Nat} {cs blank rest : List Char} {c : Char} {tokens : List Token}
    (found : gap cs = (blank, c :: rest))
    (others : Scans (offset + byteLength blank + byteLength (lexeme c rest).text)
      (lexeme c rest).rest tokens) :
    Scans offset cs ((lexeme c rest).token (offset + byteLength blank) :: tokens)

/-- What a gap is cut off from, if anything. -/
theorem gap_cut {cs blank rest : List Char} {c : Char} (found : gap cs = (blank, c :: rest)) :
    cs = blank ++ c :: rest ∧ Gap blank := by
  have whole := gapFrom_append .between cs
  have isGap := gapFrom_ended .between cs
  rw [show gapFrom .between cs = (blank, c :: rest) from found] at whole isGap
  exact ⟨whole.symm, isGap (List.cons_ne_nil _ _)⟩

/-- A text that is nothing but a gap, whose last comment may be left open. -/
private theorem gap_last {cs blank : List Char} (found : gap cs = (blank, [])) : LastGap cs := by
  have whole := gapFrom_append .between cs
  have last := gapFrom_last .between cs
  rw [show gapFrom .between cs = (blank, []) from found] at whole last
  rw [← whole, List.append_nil]
  exact (last rfl).resolve_right id

/-- A gap and the lexeme behind it are the text up to the rest of the lexeme. -/
theorem gap_lexeme {cs blank rest : List Char} {c : Char} (found : gap cs = (blank, c :: rest)) :
    cs = blank ++ (lexeme c rest).text ++ (lexeme c rest).rest := by
  rw [List.append_assoc, (lexeme_cut c rest).2, ← (gap_cut found).1]

private theorem tokensWithin_scans (limit offset : Nat) (cs : List Char)
    (enough : cs.length ≤ limit) : Scans offset cs (tokensWithin limit offset cs) := by
  induction limit generalizing offset cs with
  | zero =>
    rw [List.length_eq_zero_iff.mp (Nat.le_zero.mp enough)]
    exact .last rfl
  | succ limit ih =>
    rw [tokensWithin]
    split
    next blank found => exact .last found
    next blank c rest found =>
      -- Each token takes at least one character, so the limit is never met.
      have taken := List.length_pos_iff.mpr (lexeme_cut c rest).1
      have lengths := congrArg List.length (gap_lexeme found)
      simp only [List.length_append] at lengths
      exact .token found (ih _ _ (by omega))

theorem tokens_scans (text : String) (offset : Nat) :
    Scans offset text.toList (tokens text offset) :=
  tokensWithin_scans _ _ _ (Nat.le_refl _)

/-! ## Texts are tiled -/

theorem Scans.tiles {offset : Nat} {cs : List Char} {tokens : List Token}
    (scans : Scans offset cs tokens) : Tiles offset cs tokens := by
  induction scans with
  | last found => exact .last (gap_last found)
  | @token offset cs blank rest c tokens found others ih =>
    have text : (String.ofList (lexeme c rest).text).toList = (lexeme c rest).text :=
      String.toList_ofList
    refine .token ?_ (gap_cut found).2 ?_ rfl ?_ ih
    · rw [Lexeme.token, text]
      exact gap_lexeme found
    · intro empty
      exact (lexeme_cut c rest).1 (text.symm.trans (String.toList_eq_nil_iff.mpr empty))
    · rw [Lexeme.token, text]

theorem tokens_tiles (text : String) (offset : Nat) :
    Tiles offset text.toList (tokens text offset) :=
  (tokens_scans text offset).tiles

namespace Tiles

variable {offset : Nat} {cs : List Char} {token : Token} {tokens : List Token}

/-- Every token has the characters that the text has at its span. -/
theorem slice (tiles : Tiles offset cs tokens) (member : token ∈ tokens) :
    IsSlice offset cs token.span token.text.toList := by
  induction tiles with
  | last => cases member
  | @token offset cs blank rest first tokens whole gap nonempty start stop others ih =>
    subst whole
    rcases List.mem_cons.mp member with rfl | later
    · refine ⟨blank, rest, rfl, start, ?_⟩
      rw [stop, start, byteLength_append, Nat.add_assoc]
    · have passed : offset + byteLength (blank ++ first.text.toList) = first.span.stop := by
        rw [stop, start, byteLength_append, Nat.add_assoc]
      exact .after _ (passed ▸ ih later)

theorem text_ne_empty (tiles : Tiles offset cs tokens) (member : token ∈ tokens) :
    token.text ≠ "" := by
  induction tiles with
  | last => cases member
  | token whole gap nonempty start stop others ih =>
    rcases List.mem_cons.mp member with rfl | later
    · exact nonempty
    · exact ih later

theorem start_lt_stop (tiles : Tiles offset cs tokens) (member : token ∈ tokens) :
    token.span.start < token.span.stop :=
  (tiles.slice member).start_lt_stop fun empty =>
    tiles.text_ne_empty member (String.toList_eq_nil_iff.mp empty)

/-- A token ends before the next one starts. -/
theorem ordered (tiles : Tiles offset cs tokens) :
    tokens.Pairwise fun first second => first.span.stop ≤ second.span.start := by
  induction tiles with
  | last => exact .nil
  | token whole gap nonempty start stop others ih =>
    refine .cons (fun second later => ?_) ih
    exact (others.slice later).boundaries.1.within.1

end Tiles

/-- The token has its place in a text that starts at `offset`. -/
structure Token.Placed (offset : Nat) (cs : List Char) (token : Token) : Prop where
  nonempty : token.span.start < token.span.stop
  from_start : offset ≤ token.span.start
  to_stop : token.span.stop ≤ offset + byteLength cs
  start : IsBoundary offset cs token.span.start
  stop : IsBoundary offset cs token.span.stop
  slice : IsSlice offset cs token.span token.text.toList

/-- The tokens of a text stand in order at places of their own, each with the characters
that stand there, and what stands between them is gaps. -/
theorem tokens_tile_text (text : String) (offset : Nat) :
    (∀ token ∈ tokens text offset, token.Placed offset text.toList) ∧
      ((tokens text offset).Pairwise fun first second => first.span.stop ≤ second.span.start) ∧
      Tiles offset text.toList (tokens text offset) := by
  have tiles := tokens_tiles text offset
  refine ⟨fun token member => ?_, tiles.ordered, tiles⟩
  have slice := tiles.slice member
  have nonempty : token.text.toList ≠ [] := fun empty =>
    tiles.text_ne_empty member (String.toList_eq_nil_iff.mp empty)
  obtain ⟨start, stop⟩ := slice.boundaries
  exact ⟨slice.start_lt_stop nonempty, start.within.1, stop.within.2, start, stop, slice⟩

end MethodContracts.Source
