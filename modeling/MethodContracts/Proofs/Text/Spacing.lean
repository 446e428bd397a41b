import Mathlib.Data.List.DropRight
import Mathlib.Data.List.Forall2
import MethodContracts.Text.Blank
import MethodContracts.Text.Split

/-!
# Tokens and the white space around them

A text is spaced as a list of tokens if it consists of them with white space before,
between and after. Trimming finds the token of a text that has only one, and cutting
at a separator cuts the list of tokens at the tokens that are that separator.
-/
namespace MethodContracts.Text

/-! ## White space -/

/-- Nothing but white space. -/
def Blank (cs : List Char) : Prop := ∀ c ∈ cs, isBlank c = true

theorem Blank.nil : Blank [] := List.forall_mem_nil _

theorem Blank.append {first second : List Char} (one : Blank first) (two : Blank second) :
    Blank (first ++ second) := List.forall_mem_append.mpr ⟨one, two⟩

theorem Blank.not_mem {cs : List Char} (blank : Blank cs) {c : Char} (dense : isBlank c = false) :
    c ∉ cs := by
  intro member
  rw [blank c member] at dense
  cases dense

theorem Blank.trimLeft_eq {cs : List Char} (blank : Blank cs) : trimLeft cs = [] :=
  List.dropWhile_eq_nil_iff.mpr blank

theorem Blank.trimRight_eq {cs : List Char} (blank : Blank cs) : trimRight cs = [] :=
  List.rdropWhile_eq_nil_iff.mpr blank

/-- Trimming takes white space from both ends and nothing else. -/
theorem exists_trim (cs : List Char) :
    ∃ before after, Blank before ∧ Blank after ∧ cs = before ++ trim cs ++ after := by
  refine ⟨cs.takeWhile isBlank, (trimLeft cs).rtakeWhile isBlank,
    fun _ member => List.mem_takeWhile_imp member,
    fun _ member => List.mem_rtakeWhile_imp member, ?_⟩
  rw [List.append_assoc]
  have right : trim cs ++ (trimLeft cs).rtakeWhile isBlank = trimLeft cs :=
    List.rdropWhile_append_rtakeWhile
  rw [right]
  exact List.takeWhile_append_dropWhile.symm

private theorem trimRight_append_blank (cs : List Char) {after : List Char} (blank : Blank after) :
    trimRight (cs ++ after) = trimRight cs := by
  simp only [trimRight, List.reverse_append]
  rw [List.dropWhile_append_of_pos fun c member => blank c (List.mem_reverse.mp member)]

/-- White space at the ends makes no difference after trimming. -/
private theorem trim_padded {before after : List Char} (left : Blank before) (right : Blank after)
    (cs : List Char) : trim (before ++ cs ++ after) = trim cs := by
  have leading : trimLeft (before ++ cs ++ after) = trimLeft (cs ++ after) := by
    rw [List.append_assoc]
    exact List.dropWhile_append_of_pos left
  rw [trim, leading, trimLeft, List.dropWhile_append]
  split
  next empty =>
    -- Nothing but white space is left, which is all trimmed.
    rw [List.isEmpty_iff] at empty
    change trimRight (trimLeft after) = trimRight (trimLeft cs)
    rw [right.trimLeft_eq, trimLeft, empty]
  next => exact trimRight_append_blank _ right

theorem trim_trim (cs : List Char) : trim (trim cs) = trim cs := by
  obtain ⟨before, after, left, right, whole⟩ := exists_trim cs
  have padded := trim_padded left right (trim cs)
  rwa [← whole, eq_comm] at padded

theorem trim_eq_nil_iff {cs : List Char} : trim cs = [] ↔ Blank cs := by
  constructor
  · intro empty
    obtain ⟨before, after, left, right, whole⟩ := exists_trim cs
    rw [whole, empty, List.append_nil]
    exact left.append right
  · intro blank
    rw [trim, blank.trimLeft_eq]
    rfl

theorem trim_trimLeft (cs : List Char) : trim (trimLeft cs) = trim cs := by
  rw [trim, trim, trimLeft, trimLeft, List.dropWhile_idempotent]

theorem trim_trimRight (cs : List Char) : trim (trimRight cs) = trim cs := by
  have whole : [] ++ trimRight cs ++ cs.rtakeWhile isBlank = cs :=
    List.rdropWhile_append_rtakeWhile
  have trailing : Blank (cs.rtakeWhile isBlank) := fun _ member => List.mem_rtakeWhile_imp member
  have padded := trim_padded Blank.nil trailing (trimRight cs)
  rw [whole] at padded
  exact padded.symm

/-- Some characters, none of them white space. -/
structure Solid (token : List Char) : Prop where
  ne_nil : token ≠ []
  dense : ∀ c ∈ token, isBlank c = false

instance (token : List Char) : Decidable (Solid token) :=
  decidable_of_iff ((!token.isEmpty && token.all fun c => !isBlank c) = true) <| by
    simp only [Bool.and_eq_true, Bool.not_eq_true', List.isEmpty_eq_false_iff, List.all_eq_true]
    exact ⟨fun checked => ⟨checked.1, checked.2⟩, fun solid => ⟨solid.ne_nil, solid.dense⟩⟩

theorem Solid.trimLeft_append {token : List Char} (solid : Solid token) (before after : List Char) :
    trimLeft (before ++ token ++ after) = trimLeft before ++ token ++ after := by
  have kept : (token ++ after).dropWhile isBlank = token ++ after := by
    cases token with
    | nil => exact absurd rfl solid.ne_nil
    | cons c token =>
      have dense := solid.dense c List.mem_cons_self
      simp [dense]
  simp only [trimLeft, List.append_assoc, List.dropWhile_append, kept, ite_eq_right_iff]
  intro empty
  rw [List.isEmpty_iff.mp empty, List.nil_append]

/-- White space next to a token is outside, whichever other tokens follow. -/
theorem Solid.trim_append {token : List Char} (solid : Solid token) (before after : List Char) :
    trim (before ++ token ++ after) = trimLeft before ++ token ++ trimRight after := by
  have reversed : Solid token.reverse :=
    ⟨fun empty => solid.ne_nil (List.reverse_eq_nil_iff.mp empty),
      fun c member => solid.dense c (List.mem_reverse.mp member)⟩
  -- The right end is the left end of the reversed text.
  have right := reversed.trimLeft_append after.reverse (trimLeft before).reverse
  rw [trim, solid.trimLeft_append, trimRight]
  simp only [trimLeft, trimRight, List.reverse_append, List.append_assoc] at right ⊢
  rw [right]
  simp

/-! ## Spaced tokens -/

/-- The text consists of the tokens in order, with free white space around each. -/
inductive Spaced : List (List Char) → List Char → Prop
  | nil {gap : List Char} : Blank gap → Spaced [] gap
  | cons {gap token rest : List Char} {tokens : List (List Char)} : Blank gap →
    Spaced tokens rest → Spaced (token :: tokens) (gap ++ token ++ rest)

namespace Spaced

variable {tokens first second : List (List Char)} {cs a b gap token : List Char}

theorem nil_iff : Spaced [] cs ↔ Blank cs := by
  constructor
  · intro spaced
    cases spaced with
    | nil blank => exact blank
  · exact .nil

theorem gapBefore (blank : Blank gap) (spaced : Spaced tokens cs) : Spaced tokens (gap ++ cs) := by
  cases spaced with
  | nil other => exact .nil (blank.append other)
  | cons other rest =>
    rw [List.append_assoc, ← List.append_assoc, ← List.append_assoc]
    exact .cons (blank.append other) rest

theorem append (one : Spaced first a) (two : Spaced second b) :
    Spaced (first ++ second) (a ++ b) := by
  induction one with
  | nil blank => exact two.gapBefore blank
  | cons blank _ ih =>
    rw [List.append_assoc]
    exact .cons blank ih

theorem single (token : List Char) : Spaced [token] token := by
  have spaced : Spaced [token] ([] ++ token ++ []) := .cons .nil (.nil .nil)
  rwa [List.append_nil, List.nil_append] at spaced

theorem of_append (spaced : Spaced (first ++ second) cs) :
    ∃ a b, cs = a ++ b ∧ Spaced first a ∧ Spaced second b := by
  induction first generalizing cs with
  | nil => exact ⟨[], cs, rfl, .nil .nil, spaced⟩
  | cons token first ih =>
    cases spaced with
    | cons blank rest =>
      obtain ⟨a, b, rfl, one, two⟩ := ih rest
      exact ⟨_, b, (List.append_assoc _ _ _).symm, .cons blank one, two⟩

theorem single_iff : Spaced [token] cs ↔
    ∃ before after, Blank before ∧ Blank after ∧ cs = before ++ token ++ after := by
  constructor
  · intro spaced
    cases spaced with
    | cons left rest => exact ⟨_, _, left, nil_iff.mp rest, rfl⟩
  · rintro ⟨before, after, left, right, rfl⟩
    exact .cons left (.nil right)

/-- What is in no token and no white space is not in the text. -/
theorem not_mem (spaced : Spaced tokens cs) {c : Char} (dense : isBlank c = false)
    (free : ∀ token ∈ tokens, c ∉ token) : c ∉ cs := by
  induction spaced with
  | nil blank => exact blank.not_mem dense
  | cons blank _ ih =>
    have later := ih fun token member => free token (List.mem_cons_of_mem _ member)
    have here := free _ List.mem_cons_self
    simp only [List.mem_append, not_or]
    exact ⟨⟨blank.not_mem dense, here⟩, later⟩

/-- A text with a token is not blank. -/
theorem not_blank (spaced : Spaced tokens cs) (member : token ∈ tokens) (solid : Solid token) :
    ¬Blank cs := by
  intro blank
  obtain ⟨c, inside⟩ := List.exists_mem_of_ne_nil token solid.ne_nil
  induction spaced with
  | nil => cases member
  | @cons _ first rest _ _ _ ih =>
    simp only [Blank, List.forall_mem_append] at blank
    rcases List.mem_cons.mp member with rfl | later
    · have dense := solid.dense c inside
      rw [blank.1.2 c inside] at dense
      cases dense
    · exact ih later blank.2

end Spaced

/-- A text around a single token is that token when trimmed. -/
theorem trim_eq_iff {token : List Char} (solid : Solid token) (cs : List Char) :
    trim cs = token ↔ Spaced [token] cs := by
  rw [Spaced.single_iff]
  constructor
  · rintro rfl
    exact exists_trim cs
  · rintro ⟨before, after, left, right, rfl⟩
    rw [solid.trim_append, left.trimLeft_eq, right.trimRight_eq, List.nil_append, List.append_nil]

/-! ## Pieces between separators -/

/-- The text is these pieces, at least one, with a separator between each two and no
other. -/
structure Pieces (separator : Char) (cs : List Char) (pieces : List (List Char)) : Prop where
  ne_nil : pieces ≠ []
  free : ∀ piece ∈ pieces, separator ∉ piece
  joined : cs = [separator].intercalate pieces

theorem splitOn_eq (separator : Char) (cs : List Char) :
    splitOn separator cs = cs.splitOn separator := by
  induction cs with
  | nil => rfl
  | cons c rest ih =>
    simp only [splitOn, List.splitOn_cons_eq_if_modifyHead, beq_iff_eq, ih]
    split
    · rfl
    · cases pieces : rest.splitOn separator with
      | nil => exact absurd pieces (List.splitOn_ne_nil separator rest)
      | cons piece more => rfl

theorem joinWith_eq (separator : List Char) (pieces : List (List Char)) :
    joinWith separator pieces = separator.intercalate pieces := by
  induction pieces with
  | nil => rfl
  | cons piece pieces ih =>
    cases pieces with
    | nil => simp [joinWith]
    | cons next pieces => rw [joinWith, ih, List.intercalate_cons_cons]

private theorem separator_not_mem (separator : Char) (cs : List Char) :
    ∀ piece ∈ splitOn separator cs, separator ∉ piece := by
  induction cs with
  | nil => simp [splitOn]
  | cons c rest ih =>
    simp only [splitOn]
    split
    next => simpa using ih
    -- The character is put in front of the first piece, which has no separator yet.
    next different =>
      have apart : separator ≠ c := fun equal => different equal.symm
      cases pieces : splitOn separator rest with
      | nil => simpa using apart
      | cons piece more =>
        rw [pieces, List.forall_mem_cons] at ih
        simpa [apart] using ih

/-- Cutting yields the pieces, and nothing else is cut like this. -/
theorem pieces_iff {separator : Char} {cs : List Char} {pieces : List (List Char)} :
    Pieces separator cs pieces ↔ splitOn separator cs = pieces := by
  constructor
  · intro are
    rw [are.joined, splitOn_eq]
    exact List.splitOn_intercalate separator are.free are.ne_nil
  · rintro rfl
    refine ⟨splitOn_ne_nil separator cs, separator_not_mem separator cs, ?_⟩
    rw [splitOn_eq, List.intercalate_splitOn]

theorem mem_intercalate {α : Type} {separator : List α} {groups : List (List α)} {x : α}
    (member : x ∈ separator.intercalate groups) : x ∈ separator ∨ ∃ group ∈ groups, x ∈ group := by
  induction groups with
  | nil => cases member
  | cons group groups ih =>
    cases groups with
    | nil =>
      rw [List.intercalate_singleton] at member
      exact Or.inr ⟨group, List.mem_cons_self, member⟩
    | cons next groups =>
      rw [List.intercalate_cons_cons, List.mem_append, List.mem_append] at member
      rcases member with (here | mark) | later
      · exact Or.inr ⟨group, List.mem_cons_self, here⟩
      · exact Or.inl mark
      · rcases ih later with mark | ⟨other, found, inside⟩
        · exact Or.inl mark
        · exact Or.inr ⟨other, List.mem_cons_of_mem _ found, inside⟩

section Separator

variable {separator : Char} {groups : List (List (List Char))}

/-- Pieces of spaced tokens, with white space behind the separators, are spaced as
all the tokens. -/
theorem Spaced.intercalate {gap : List Char} (blank : Blank gap) {pieces : List (List Char)}
    (each : List.Forall₂ Spaced groups pieces) :
    Spaced ([[separator]].intercalate groups) ((separator :: gap).intercalate pieces) := by
  induction each with
  | nil => exact .nil .nil
  | @cons group piece groups pieces first rest ih =>
    cases rest with
    | nil => simpa using first
    | cons =>
      rw [List.intercalate_cons_cons, List.intercalate_cons_cons]
      have mark : Spaced [[separator]] ([] ++ [separator] ++ gap) := .cons Blank.nil (.nil blank)
      exact (first.append mark).append ih

/-- A text spaced as groups with separators between falls into pieces spaced as the groups. -/
theorem Spaced.exists_pieces (dense : isBlank separator = false) (some : groups ≠ [])
    (free : ∀ group ∈ groups, ∀ token ∈ group, separator ∉ token) {cs : List Char}
    (spaced : Spaced ([[separator]].intercalate groups) cs) :
    ∃ pieces, Pieces separator cs pieces ∧ List.Forall₂ Spaced groups pieces := by
  induction groups generalizing cs with
  | nil => exact absurd rfl some
  | cons group groups ih =>
    have here := free group List.mem_cons_self
    cases groups with
    | nil =>
      rw [List.intercalate_singleton] at spaced
      refine ⟨[cs], ⟨List.cons_ne_nil _ _, ?_, List.intercalate_singleton.symm⟩,
        .cons spaced .nil⟩
      exact List.forall_mem_singleton.mpr (spaced.not_mem dense here)
    | cons next groups =>
      rw [List.intercalate_cons_cons] at spaced
      obtain ⟨start, rest, rfl, starts, later⟩ := spaced.of_append
      obtain ⟨first, mark, rfl, one, marked⟩ := starts.of_append
      -- The white space around the separator belongs to the pieces next to it.
      obtain ⟨before, after, left, right, rfl⟩ := single_iff.mp marked
      have piece : Spaced group (first ++ before) := by
        simpa using one.append (Spaced.nil left)
      obtain ⟨pieces, are, each⟩ := ih (List.cons_ne_nil _ _)
        (fun other member => free other (List.mem_cons_of_mem _ member)) (later.gapBefore right)
      refine ⟨(first ++ before) :: pieces, ⟨List.cons_ne_nil _ _, ?_, ?_⟩, .cons piece each⟩
      · exact List.forall_mem_cons.mpr ⟨piece.not_mem dense here, are.free⟩
      · rw [List.intercalate_cons_of_ne_nil are.ne_nil, ← are.joined]
        simp

/-- Cutting a text at a separator cuts its tokens at the tokens that are that separator. -/
theorem spaced_intercalate_iff (dense : isBlank separator = false) (some : groups ≠ [])
    (free : ∀ group ∈ groups, ∀ token ∈ group, separator ∉ token) {cs : List Char} :
    Spaced ([[separator]].intercalate groups) cs ↔
      List.Forall₂ Spaced groups (splitOn separator cs) := by
  constructor
  · intro spaced
    obtain ⟨pieces, are, each⟩ := spaced.exists_pieces dense some free
    rwa [pieces_iff.mp are]
  · intro each
    have are : Pieces separator cs (splitOn separator cs) := pieces_iff.mpr rfl
    rw [are.joined]
    exact Spaced.intercalate .nil each

end Separator

/-! ## Cutting what was trimmed -/

/-- White space around a text stays with its first and its last piece. -/
theorem Pieces.padded {separator : Char} (dense : isBlank separator = false)
    {cs before after : List Char} {pieces : List (List Char)} (are : Pieces separator cs pieces)
    (left : Blank before) (right : Blank after) :
    ∃ padded, Pieces separator (before ++ cs ++ after) padded ∧
      padded.map trim = pieces.map trim := by
  obtain ⟨some, free, rfl⟩ := are
  induction pieces generalizing before with
  -- The last piece takes the padding behind, and a single one that in front as well.
  | nil => exact absurd rfl some
  | cons piece pieces ih =>
    have here := free piece List.mem_cons_self
    cases pieces with
    | nil =>
      rw [List.intercalate_singleton]
      refine ⟨[before ++ piece ++ after],
        ⟨List.cons_ne_nil _ _, ?_, List.intercalate_singleton.symm⟩, ?_⟩
      · simp [left.not_mem dense, right.not_mem dense, here]
      · simp only [List.map_cons, List.map_nil, trim_padded left right]
    | cons next pieces =>
      obtain ⟨padded, rest, same⟩ := ih Blank.nil (List.cons_ne_nil _ _)
        fun other member => free other (List.mem_cons_of_mem _ member)
      refine ⟨(before ++ piece) :: padded, ⟨List.cons_ne_nil _ _, ?_, ?_⟩, ?_⟩
      · refine List.forall_mem_cons.mpr ⟨?_, rest.free⟩
        simp [left.not_mem dense, here]
      · rw [List.intercalate_cons_of_ne_nil rest.ne_nil, ← rest.joined,
          List.intercalate_cons_cons]
        simp
      · have trimmed : trim (before ++ piece) = trim piece := by
          simpa using trim_padded left Blank.nil piece
        rw [List.map_cons, List.map_cons, trimmed, same]

theorem splitOn_trim {separator : Char} (dense : isBlank separator = false) (cs : List Char) :
    (splitOn separator (trim cs)).map trim = (splitOn separator cs).map trim := by
  obtain ⟨before, after, left, right, whole⟩ := exists_trim cs
  have inner : Pieces separator (trim cs) (splitOn separator (trim cs)) := pieces_iff.mpr rfl
  obtain ⟨padded, outer, same⟩ := inner.padded dense left right
  rw [← whole] at outer
  rw [pieces_iff.mp outer, same]

/-! ## The first occurrence -/

/-- The text falls apart at its first separator: none begins earlier. -/
structure First (separator cs before after : List Char) : Prop where
  joined : cs = before ++ separator ++ after
  first : ¬separator <:+: before ++ separator.dropLast

private theorem append_dropLast_isPrefix (before separator after : List Char) :
    before ++ separator.dropLast <+: before ++ separator ++ after := by
  rw [List.append_assoc, List.prefix_append_right_inj]
  exact (List.dropLast_prefix separator).trans (List.prefix_append _ _)

/-- A text that begins with no separator keeps its first separator behind another character. -/
theorem First.cons {separator cs before after : List Char} {c : Char}
    (found : First separator cs before after) (apart : ¬separator <+: c :: cs) :
    First separator (c :: cs) (c :: before) after where
  joined := by rw [found.joined, List.cons_append, List.cons_append]
  first := by
    rw [List.cons_append, List.infix_cons_iff, not_or]
    refine ⟨fun starts => apart (starts.trans ?_), found.first⟩
    rw [found.joined]
    exact append_dropLast_isPrefix (c :: before) separator after

theorem exists_first {separator : List Char} (filled : separator ≠ []) {cs : List Char}
    (present : separator <:+: cs) : ∃ before after, First separator cs before after := by
  induction cs with
  | nil => exact absurd (List.infix_nil.mp present) filled
  | cons c rest ih =>
    by_cases starts : separator <+: c :: rest
    · obtain ⟨after, whole⟩ := starts
      refine ⟨[], after, whole.symm, fun shorter => ?_⟩
      -- A separator is longer than what is left of it without its last character.
      have length := shorter.length_le
      have positive := List.length_pos_of_ne_nil filled
      rw [List.nil_append, List.length_dropLast] at length
      omega
    · have later := (List.infix_cons_iff.mp present).resolve_left starts
      obtain ⟨before, after, found⟩ := ih later
      exact ⟨c :: before, after, found.cons starts⟩

theorem splitFirst_eq_none {separator cs : List Char} (absent : ¬separator <:+: cs) :
    splitFirst separator cs = none := by
  induction cs with
  | nil =>
    have filled : separator ≠ [] := fun empty => absent (empty ▸ List.infix_refl _)
    simp only [splitFirst, filled, ite_false]
  | cons c rest ih =>
    rw [List.infix_cons_iff, not_or] at absent
    simp only [splitFirst, List.isPrefixOf_iff_prefix, absent.1, ite_false, ih absent.2,
      Option.map_none]

theorem splitFirst_eq_some {separator : List Char} (filled : separator ≠ [])
    {cs before after : List Char} (found : First separator cs before after) :
    splitFirst separator cs = some (before, after) := by
  obtain ⟨rfl, first⟩ := found
  induction before with
  | nil =>
    cases separator with
    | nil => exact absurd rfl filled
    | cons c separator => simp [splitFirst]
  | cons c before ih =>
    rw [List.cons_append, List.infix_cons_iff, not_or] at first
    have apart : ¬separator <+: c :: (before ++ separator ++ after) := by
      intro starts
      apply first.1
      -- What begins the whole text begins any part of it that is long enough.
      apply List.prefix_of_prefix_length_le starts (append_dropLast_isPrefix (c :: before) _ after)
      have positive := List.length_pos_of_ne_nil filled
      rw [List.length_append, List.length_cons, List.length_dropLast]
      omega
    simp only [List.cons_append, splitFirst, List.isPrefixOf_iff_prefix, apart, ite_false,
      ih first.2, Option.map_some]

end MethodContracts.Text
