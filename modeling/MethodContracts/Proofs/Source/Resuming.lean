import Mathlib.Data.List.TakeWhile
import MethodContracts.Proofs.Source.Spelling
import MethodContracts.Proofs.Source.Tiling

/-!
# Lexemes of a changed text

A lexeme ends where it did if the text behind it goes on as before, or goes on as before for a
while and then with white space. Where no gap begins, none begins in the changed text, and gaps
that follow one another are one gap.
-/
namespace MethodContracts.Source

open Text

/-! ## Blanks -/

/-- The code points that are blank. -/
def blankCodes : List Nat :=
  [9, 10, 11, 12, 13, 0x20, 0x85, 0xA0, 0x1680, 0x2000, 0x2001, 0x2002, 0x2003, 0x2004, 0x2005,
    0x2006, 0x2007, 0x2008, 0x2009, 0x200A, 0x2028, 0x2029, 0x202F, 0x205F, 0x3000]

private theorem exists_blankCode {c : Char} (blank : isBlank c = true) :
    ∃ code ∈ blankCodes, c = Char.ofNat code := by
  refine ⟨c.toNat, ?_, (Char.ofNat_toNat c).symm⟩
  have code : c.toNat = c.val.toNat := rfl
  simp only [isBlank, Bool.or_eq_true, Bool.and_eq_true, decide_eq_true_eq, beq_iff_eq,
    ← code] at blank
  simp only [blankCodes, List.mem_cons, List.not_mem_nil, or_false]
  rcases blank with ((((((((((low | is) | is) | is) | is) | wide) | is) | is) | is) | is) | is)
  case inl.inl.inl.inl.inl.inl.inl.inl.inl.inl => omega
  case inl.inl.inl.inl.inl.inr => omega
  all_goals simp [is]

theorem isNamePart_of_blank {c : Char} (blank : isBlank c = true) : isNamePart c = false := by
  obtain ⟨code, member, rfl⟩ := exists_blankCode blank
  revert code
  decide +kernel

private theorem isNumberPart_of_blank {c : Char} (blank : isBlank c = true) :
    isNumberPart c = false := by
  obtain ⟨code, member, rfl⟩ := exists_blankCode blank
  revert code
  decide +kernel

/-- The text goes on as the other one for a while, and then with white space. -/
def Resumes (rest rest' : List Char) : Prop :=
  ∃ same left blank later, rest = same ++ left ∧ rest' = same ++ blank :: later ∧
    isBlank blank = true

namespace Resumes

variable {rest rest' : List Char} {c : Char}

theorem append (front : List Char) (resumes : Resumes rest rest') :
    Resumes (front ++ rest) (front ++ rest') := by
  obtain ⟨same, left, blank, later, rfl, rfl, isBlank⟩ := resumes
  exact ⟨front ++ same, left, blank, later, (List.append_assoc ..).symm,
    (List.append_assoc ..).symm, isBlank⟩

/-- The next character is white space, or the same in both texts. -/
theorem uncons (resumes : Resumes rest rest') : ∃ c later', rest' = c :: later' ∧
    (isBlank c = true ∨ ∃ later, rest = c :: later ∧ Resumes later later') := by
  obtain ⟨same, left, blank, later, rfl, rfl, isBlank⟩ := resumes
  cases same with
  | nil => exact ⟨blank, later, rfl, .inl isBlank⟩
  | cons c same =>
    exact ⟨c, same ++ blank :: later, rfl, .inr ⟨same ++ left, rfl, same, left, blank, later, rfl,
      rfl, isBlank⟩⟩

/-- No character appears in front that is not white space. -/
theorem not_cons (resumes : Resumes rest rest') (dense : isBlank c = false)
    (other : ∀ later, rest = c :: later → False) (later' : List Char) (same : rest' = c :: later') :
    False := by
  obtain ⟨d, rest', rfl, blank | ⟨later, rfl, _⟩⟩ := resumes.uncons
  · cases same
    rw [dense] at blank
    cases blank
  · cases same
    exact other later rfl

theorem not_cons_cons {d : Char} (resumes : Resumes rest rest') (dense : isBlank c = false)
    (dense' : isBlank d = false) (other : ∀ later, rest = c :: d :: later → False)
    (later' : List Char) (same : rest' = c :: d :: later') : False := by
  obtain ⟨first, rest', rfl, blank | ⟨later, rfl, further⟩⟩ := resumes.uncons
  · cases same
    rw [dense] at blank
    cases blank
  · cases same
    exact further.not_cons dense' (fun more same => other more (same ▸ rfl)) later' rfl

theorem takeWhile_append {p : Char → Bool} (noBlank : ∀ c, isBlank c = true → p c = false)
    {cs : List Char} (resumes : Resumes (cs.dropWhile p) rest') :
    (cs.takeWhile p ++ rest').takeWhile p = cs.takeWhile p ∧
      (cs.takeWhile p ++ rest').dropWhile p = rest' := by
  obtain ⟨c, later', rfl, same⟩ := resumes.uncons
  -- The next character after the cut is the same as before, or it is a blank.
  have stops : p c = false := by
    rcases same with blank | ⟨later, dropped, _⟩
    · exact noBlank c blank
    · have head := List.head?_dropWhile_not p cs
      simpa [dropped] using head
  have passes : ∀ d ∈ cs.takeWhile p, p d = true := fun d => List.mem_takeWhile_imp
  constructor
  · rw [List.takeWhile_append_of_pos passes, List.takeWhile_cons_of_neg (by simp [stops]),
      List.append_nil]
  · rw [List.dropWhile_append_of_pos passes, List.dropWhile_cons_of_neg (by simp [stops])]

end Resumes

/-! ## Lexemes stay -/

private theorem quotedRest_resumes (quote : Char) (cs rest' : List Char)
    (more : (quotedRest quote cs).2 ≠ []) :
    quotedRest quote ((quotedRest quote cs).1 ++ rest') = ((quotedRest quote cs).1, rest') := by
  fun_induction quotedRest quote cs with
  | case1 => exact absurd rfl more
  | case2 c rest ih => simp only [keep, List.cons_append, List.nil_append, quotedRest, ih more]
  -- A lone backslash at the end would have left nothing behind the quoted text.
  | case3 c rest noEscape ends =>
    have plain : c ≠ '\\' := by
      rintro rfl
      obtain ⟨d, later, rfl⟩ := List.exists_cons_of_ne_nil more
      exact noEscape d later rfl rfl
    simp [quotedRest, plain, ends]
  | case4 c rest noEscape goesOn ih =>
    have plain : c ≠ '\\' := by
      rintro rfl
      cases rest with
      | nil => exact more rfl
      | cons d later => exact noEscape d later rfl rfl
    simp [keep, quotedRest, plain, goesOn, ih more]

private theorem blockRest_length (cs : List Char) (more : (blockRest cs).2 ≠ []) :
    3 ≤ (blockRest cs).1.length := by
  fun_induction blockRest cs with
  | case1 => exact absurd rfl more
  | case2 c rest ih =>
    have := ih more
    simp only [keep, List.length_append]
    omega
  | case3 rest => exact Nat.le_refl 3
  | case4 c rest _ _ ih =>
    have := ih more
    simp only [keep, List.length_append]
    omega

private theorem blockRest_resumes (cs rest' : List Char) (more : (blockRest cs).2 ≠ []) :
    blockRest ((blockRest cs).1 ++ rest') = ((blockRest cs).1, rest') := by
  fun_induction blockRest cs with
  | case1 => exact absurd rfl more
  | case2 c rest ih => simp only [keep, List.cons_append, List.nil_append, blockRest, ih more]
  | case3 rest => rfl
  | case4 c rest noEscape noEnd ih =>
    have plain : c ≠ '\\' := by
      rintro rfl
      cases rest with
      | nil => exact more rfl
      | cons d later => exact noEscape d later rfl rfl
    -- What follows is long enough to show that no end stands here.
    have long := blockRest_length rest more
    have whole := blockRest_append rest
    have goesOn := ih more
    have noEnd' : ∀ later, c = '"' → (blockRest rest).1 ++ rest' = '"' :: '"' :: later →
        False := by
      intro later quote quotes
      generalize (blockRest rest).1 = text at long whole quotes
      have nonempty : 0 < text.length := by omega
      obtain ⟨first, text, rfl⟩ := List.exists_cons_of_length_pos nonempty
      rw [List.length_cons] at long
      have nonempty : 0 < text.length := by omega
      obtain ⟨second, text, rfl⟩ := List.exists_cons_of_length_pos nonempty
      obtain ⟨rfl, rfl, -⟩ : first = '"' ∧ second = '"' ∧ text ++ rest' = later := by
        simpa using quotes
      exact noEnd _ quote whole.symm
    have noEscape' : ∀ d later, c = '\\' → (blockRest rest).1 ++ rest' = d :: later → False :=
      fun _ _ escape _ => plain escape
    simp only [keep, List.cons_append, List.nil_append, blockRest, goesOn]

/-- The characters that begin a symbol or a quoted literal. -/
def markStarts : List Char :=
  ['\x7b', '\x7d', '(', ')', '[', ']', ';', ',', '.', '*', '=', '!', '+', '-', '/', '%', '<', '>',
    '&', '|', '^', '~', '?', ':', '@', '"', '\'']

theorem lexeme_word {c : Char} (noMark : c ∉ markStarts) (rest : List Char) :
    lexeme c rest = wordLexeme c rest := by
  unfold lexeme
  split
  all_goals first
    | rfl
    | exact absurd (by decide) noMark

private theorem wordLexeme_resumes {c : Char} {rest rest' : List Char}
    (resumes : Resumes (wordLexeme c rest).rest rest') :
    wordLexeme c ((wordLexeme c rest).text.tail ++ rest') =
      { wordLexeme c rest with rest := rest' } := by
  unfold wordLexeme at resumes ⊢
  split at resumes
  next digit =>
    obtain ⟨text, left⟩ := resumes.takeWhile_append fun _ => isNumberPart_of_blank
    simp only [if_pos digit, List.tail_cons, text, left]
  next noDigit =>
    split at resumes
    next start =>
      obtain ⟨text, left⟩ := resumes.takeWhile_append fun _ => isNamePart_of_blank
      simp only [if_neg noDigit, if_pos start, List.tail_cons, text, left]
    next noStart => simp only [if_neg noDigit, if_neg noStart, List.tail_cons, List.nil_append]

theorem lexeme_resumes {c : Char} {rest rest' : List Char}
    (resumes : Resumes (lexeme c rest).rest rest')
    (more : (lexeme c rest).rest ≠ []) :
    lexeme c ((lexeme c rest).text.tail ++ rest') = { lexeme c rest with rest := rest' } := by
  fun_cases lexeme c rest
  -- The cases are those where what was not there must not appear: two more dots, the second
  -- character of an operator, the start of a comment, the end of a quoted text or of a word.
  case case10 noDots =>
    have resumes : Resumes rest rest' := by simpa only [lexeme] using resumes
    have noDots' := resumes.not_cons_cons (by decide) (by decide) noDots
    simp only [lexeme, List.tail_cons, List.nil_append]
  case case13 other | case15 other | case17 other | case24 other | case26 other | case28 other
      | case30 other | case35 other =>
    have resumes : Resumes rest rest' := by simpa only [lexeme] using resumes
    have other' := resumes.not_cons (by decide) other
    simp only [lexeme, List.tail_cons, List.nil_append]
  case case20 noDash noArrow =>
    have resumes : Resumes rest rest' := by simpa only [lexeme] using resumes
    have noDash' := resumes.not_cons (by decide) noDash
    have noArrow' := resumes.not_cons (by decide) noArrow
    simp only [lexeme, List.tail_cons, List.nil_append]
  case case37 rest _ _ cut =>
    cases cut
    have goesOn := blockRest_resumes rest rest' (by simpa only [lexeme, keep] using more)
    simp only [List.cons_append, List.tail_cons, List.nil_append, lexeme, keep, goesOn]
  case case38 noBlock cut =>
    have goesOn := quotedRest_resumes '"' rest rest' (by simpa only [lexeme, keep] using more)
    have whole := quotedRest_append '"' rest
    have resumes : Resumes (quotedRest '"' rest).2 rest' := by
      simpa only [lexeme, keep] using resumes
    have resumes := resumes.append (quotedRest '"' rest).1
    rw [whole] at resumes
    have noBlock' := resumes.not_cons_cons (by decide) (by decide) noBlock
    simp only [List.cons_append, List.tail_cons, List.nil_append, lexeme, keep, goesOn]
  case case39 cut =>
    have goesOn := quotedRest_resumes '\'' rest rest' more
    simp only [List.cons_append, List.tail_cons, List.nil_append, lexeme, keep, goesOn]
  case case40 =>
    have noMark : c ∉ markStarts := by
      simp only [markStarts, List.mem_cons, List.not_mem_nil, or_false, not_or]
      and_intros <;> assumption
    rw [lexeme_word noMark] at resumes
    rw [lexeme_word noMark]
    exact wordLexeme_resumes resumes
  all_goals rfl

/-- A closing brace and a semicolon are lexemes whatever follows, also if nothing does. -/
theorem lexeme_closed {c : Char} {rest : List Char}
    (closes : (lexeme c rest).kind = .closeBrace ∨ (lexeme c rest).kind = .semicolon)
    (rest' : List Char) :
    lexeme c ((lexeme c rest).text.tail ++ rest') = { lexeme c rest with rest := rest' } := by
  obtain ⟨nonempty, whole⟩ := lexeme_cut c rest
  have spelled := lexeme_spelled c rest
  -- The kind of a one-character token tells which character it is.
  have first (symbol : Char) (text : String.ofList (lexeme c rest).text = String.ofList [symbol]) :
      c = symbol := by
    rw [String.ofList_injective text] at whole
    exact (List.cons.inj whole).1.symm
  rcases closes with brace | semicolon
  · obtain rfl := first '\x7d' (spelled _ (by rw [brace]; rfl))
    rfl
  · obtain rfl := first ';' (spelled _ (by rw [semicolon]; rfl))
    rfl

/-! ## Gaps are put together -/

section Steps

variable {c : Char} {cs : List Char}

theorem gapFrom_between (noLine : ∀ later, c = '/' → cs = '/' :: later → False)
    (noBlock : ∀ later, c = '/' → cs = '*' :: later → False) :
    gapFrom .between (c :: cs) =
      if isBlank c then keep [c] (gapFrom .between cs) else ([], c :: cs) := by
  generalize isPlace : GapPlace.between = place, same : c :: cs = all
  fun_cases gapFrom place all with
  | case1 => cases same
  | case2 rest => cases same; exact (noLine rest rfl rfl).elim
  | case3 rest => cases same; exact (noBlock rest rfl rfl).elim
  | case4 d rest _ _ blank => cases same; rw [if_pos blank]
  | case5 d rest _ _ dense => cases same; rw [if_neg dense]
  | case6 | case7 | case8 => cases isPlace

private theorem gapFrom_line_cons (c : Char) (cs : List Char) :
    gapFrom .line (c :: cs) = keep [c] (gapFrom (if c = '\n' then .between else .line) cs) := by
  generalize isPlace : GapPlace.line = place, same : c :: cs = all
  fun_cases gapFrom place all with
  | case1 => cases same
  | case6 => cases same; rfl
  | case2 | case3 | case4 | case5 | case7 | case8 => cases isPlace

private theorem gapFrom_block_cons (noMark : ∀ later, c = '*' → cs = '/' :: later → False) :
    gapFrom .block (c :: cs) = keep [c] (gapFrom .block cs) := by
  generalize isPlace : GapPlace.block = place, same : c :: cs = all
  fun_cases gapFrom place all with
  | case1 => cases same
  | case7 rest => cases same; exact (noMark rest rfl rfl).elim
  | case8 d rest _ => cases same; rfl
  | case2 | case3 | case4 | case5 | case6 => cases isPlace

end Steps

private theorem gapFrom_line {comment : List Char} (noFeed : '\n' ∉ comment) (cs : List Char) :
    gapFrom .line (comment ++ '\n' :: cs) = keep (comment ++ ['\n']) (gapFrom .between cs) := by
  induction comment with
  | nil => rfl
  | cons c comment ih =>
    rw [List.mem_cons, not_or] at noFeed
    rw [List.cons_append, gapFrom_line_cons, if_neg (Ne.symm noFeed.1), ih noFeed.2]
    rfl

private theorem gapFrom_block {comment : List Char} (noEnd : ¬['*', '/'] <:+: comment)
    (cs : List Char) : gapFrom .block (comment ++ '*' :: '/' :: cs) =
      keep (comment ++ ['*', '/']) (gapFrom .between cs) := by
  induction comment with
  | nil => rfl
  | cons c comment ih =>
    rw [List.infix_cons_iff, not_or] at noEnd
    -- The mark that ends the comment cannot start inside it, nor straddle its own start.
    have noMark : ∀ later, c = '*' → comment ++ '*' :: '/' :: cs = '/' :: later → False := by
      rintro later rfl slash
      cases comment with
      | nil => cases slash
      | cons d comment =>
        cases slash
        exact noEnd.1 ⟨comment, rfl⟩
    rw [List.cons_append, gapFrom_block_cons noMark, ih noEnd.2]
    rfl

theorem GapPiece.gapFrom_append {piece : List Char} (isPiece : GapPiece piece) (cs : List Char) :
    gapFrom .between (piece ++ cs) = keep piece (gapFrom .between cs) := by
  cases isPiece with
  | @blank c isBlank =>
    -- A blank is no slash, so no comment can start with it.
    have noLine : ∀ later, c = '/' → cs = '/' :: later → False := by
      rintro later rfl
      exact absurd isBlank (by decide)
    have noBlock : ∀ later, c = '/' → cs = '*' :: later → False := by
      rintro later rfl
      exact absurd isBlank (by decide)
    exact (gapFrom_between noLine noBlock).trans (if_pos isBlank)
  | @line comment noFeed =>
    have ends : gapFrom .between ('/' :: '/' :: (comment ++ '\n' :: cs)) =
        keep ['/', '/'] (gapFrom .line (comment ++ '\n' :: cs)) := rfl
    rw [gapFrom_line noFeed] at ends
    simpa only [List.cons_append, List.append_assoc, List.nil_append, keep] using ends
  | @block comment noEnd =>
    have ends : gapFrom .between ('/' :: '*' :: (comment ++ '*' :: '/' :: cs)) =
        keep ['/', '*'] (gapFrom .block (comment ++ '*' :: '/' :: cs)) := rfl
    rw [gapFrom_block noEnd] at ends
    simpa only [List.cons_append, List.append_assoc, List.nil_append, keep] using ends

/-- A gap in front of a text is part of the gap that the text begins with. -/
theorem Gap.gap_append {blank : List Char} (isGap : Gap blank) (cs : List Char) :
    gap (blank ++ cs) = keep blank (gap cs) := by
  unfold gap
  induction isGap with
  | nil => rfl
  | cons first others ih =>
    rw [List.append_assoc, first.gapFrom_append, ih]
    simp only [keep, List.append_assoc]

/-- Behind a gap no gap begins. -/
private theorem gapFrom_rest (place : GapPlace) (cs : List Char) :
    gap (gapFrom place cs).2 = ([], (gapFrom place cs).2) := by
  fun_induction gapFrom place cs with
  | case1 => rfl
  | case5 c rest noLine noBlock dense => exact (gapFrom_between noLine noBlock).trans (if_neg dense)
  | _ => assumption

theorem gap_solid {cs blank rest : List Char} {c : Char} (found : gap cs = (blank, c :: rest)) :
    gap (c :: rest) = ([], c :: rest) := by
  have solid := gapFrom_rest .between cs
  rwa [show gapFrom .between cs = (blank, c :: rest) from found] at solid

theorem lexeme_text (c : Char) (rest : List Char) :
    (lexeme c rest).text = c :: (lexeme c rest).text.tail ∧
      (lexeme c rest).text.tail ++ (lexeme c rest).rest = rest := by
  obtain ⟨nonempty, whole⟩ := lexeme_cut c rest
  obtain ⟨first, text, isText⟩ := List.exists_cons_of_ne_nil nonempty
  rw [isText] at whole ⊢
  rw [List.tail_cons, (List.cons.inj whole).1]
  exact ⟨rfl, (List.cons.inj whole).2⟩

/-- What begins with no gap begins with none if it goes on in another way. -/
theorem gap_resumes {c : Char} {rest rest' : List Char}
    (solid : gap (c :: rest) = ([], c :: rest)) (resumes : Resumes rest rest') :
    gap (c :: rest') = ([], c :: rest') := by
  have noLine : ∀ later, c = '/' → rest = '/' :: later → False := by
    rintro later rfl rfl
    cases congrArg (·.1) solid
  have noBlock : ∀ later, c = '/' → rest = '*' :: later → False := by
    rintro later rfl rfl
    cases congrArg (·.1) solid
  -- Had it been a blank, the gap would have taken it.
  have dense : ¬isBlank c = true := by
    intro blank
    have starts := (gapFrom_between noLine noBlock).trans (if_pos blank)
    cases congrArg (·.1) (starts.symm.trans solid)
  have noLine' : ∀ later, c = '/' → rest' = '/' :: later → False := fun later slash =>
    resumes.not_cons (by decide) (fun more => noLine more slash) later
  have noBlock' : ∀ later, c = '/' → rest' = '*' :: later → False := fun later slash =>
    resumes.not_cons (by decide) (fun more => noBlock more slash) later
  exact (gapFrom_between noLine' noBlock').trans (if_neg dense)

end MethodContracts.Source
