import MethodContracts.Proofs.Source.Outline
import MethodContracts.Proofs.Source.Steps

/-!
# Outlines between cursors

What is read between two cursors has its place there: its parts stand in order, none starts
before the first cursor or ends behind the second, and a node starts with its first token.
Where no error is found a node also ends with its last token, so it holds its parts.
-/
namespace MethodContracts.Source

variable {boundary : Nat → Prop}

namespace Outline

/-- The outlines stand one behind the other between `low` and `high`. -/
def InOrder : Nat → List Outline → Nat → Prop
  | _, [], _ => True
  | low, part :: parts, high =>
    low ≤ part.span.start ∧ part.span.start ≤ part.span.stop ∧ part.span.stop ≤ high ∧
      InOrder part.span.stop parts high

variable {low low' middle high high' : Nat} {parts left right : List Outline}

theorem InOrder.mono (inOrder : InOrder low parts high) (le_low : low' ≤ low)
    (le_high : high ≤ high') : InOrder low' parts high' := by
  induction parts generalizing low low' with
  | nil => trivial
  | cons part parts ih =>
    obtain ⟨start, ordered, stop, others⟩ := inOrder
    exact ⟨by omega, ordered, by omega, ih others (Nat.le_refl _)⟩

theorem InOrder.append (first : InOrder low left middle) (second : InOrder middle right high)
    (le_low : low ≤ middle) (le_high : middle ≤ high) : InOrder low (left ++ right) high := by
  induction left generalizing low with
  | nil => exact second.mono le_low (Nat.le_refl _)
  | cons part parts ih =>
    obtain ⟨start, ordered, stop, others⟩ := first
    exact ⟨start, ordered, by omega, ih others stop⟩

theorem InOrder.of_mem (inOrder : InOrder low parts high) :
    ∀ part ∈ parts, low ≤ part.span.start ∧ part.span.start ≤ part.span.stop := by
  induction parts generalizing low with
  | nil => exact List.forall_mem_nil _
  | cons first parts ih =>
    obtain ⟨start, ordered, stop, others⟩ := inOrder
    refine List.forall_mem_cons.mpr ⟨⟨start, ordered⟩, fun part member => ?_⟩
    have behind := ih others part member
    omega

theorem InOrder.pairwise (inOrder : InOrder low parts high) :
    parts.Pairwise fun first second => first.span.stop ≤ second.span.start := by
  induction parts generalizing low with
  | nil => exact .nil
  | cons first parts ih =>
    obtain ⟨start, ordered, stop, others⟩ := inOrder
    exact .cons (fun second member => (others.of_mem second member).1) (ih others)

end Outline

open Outline

/-- The outline of a token. -/
def Token.outline (token : Token) : Outline := .leaf token.text token.span

namespace Cursor

/-- The outlines of what was read from `c` to `c'`. -/
structure Fits (boundary : Nat → Prop) (c : Cursor) (parts : List Outline) (c' : Cursor) :
    Prop where
  step : c.Step boundary c'
  inOrder : InOrder c.here parts c'.here
  valid : ∀ part ∈ parts, part.Every fun node => node.span.Valid boundary
  clean : c'.errors = [] → ∀ part ∈ parts,
    part.span.stop ≤ c'.lastEnd ∧ part.Every fun node => node.Nested ∧ node.Filled

/-- The outline of the one thing that was read from `c` to `c'`. -/
structure Spans (boundary : Nat → Prop) (c : Cursor) (outline : Outline) (c' : Cursor) :
    Prop where
  fits : c.Fits boundary [outline] c'
  start : outline.span.start = c.here
  stop : c'.errors = [] → outline.span.stop = c'.lastEnd

/-- The token was read. -/
structure Read (boundary : Nat → Prop) (c : Cursor) (token : Token) (c' : Cursor) : Prop where
  spans : c.Spans boundary token.outline c'
  passed : c.here ≤ c'.lastEnd
  left_lt : c'.left < c.left

/-- One thing was read from `c` on, or nothing was. -/
inductive Finds {α : Type} (boundary : Nat → Prop) (outline : α → Outline) (c : Cursor) :
    Option α → Cursor → Prop where
  | some (value : α) {c' : Cursor} (spans : c.Spans boundary (outline value) c') :
    Finds boundary outline c (some value) c'
  | none : Finds boundary outline c none c

variable {c c' c'' c₁ c₂ : Cursor} {parts left right : List Outline} {words : List String}
  {outline : Outline} {span : Span} {token : Token} {rest : List Token}

/-- A node without words has no empty one. -/
theorem wordless : c.errors = [] → ∀ word ∈ ([] : List String), word ≠ "" :=
  fun _ => List.forall_mem_nil _

namespace Fits

theorem nil (step : c.Step boundary c') : c.Fits boundary [] c' :=
  ⟨step, trivial, List.forall_mem_nil _, fun _ => List.forall_mem_nil _⟩

theorem later (fits : c.Fits boundary parts c') (step : c'.Step boundary c'') :
    c.Fits boundary parts c'' where
  step := fits.step.trans step
  inOrder := fits.inOrder.mono (Nat.le_refl _) step.here_le
  valid := fits.valid
  clean clean part member :=
    have ⟨stop, every⟩ := fits.clean (step.clean clean) part member
    ⟨Nat.le_trans stop step.lastEnd_le, every⟩

theorem earlier (step : c.Step boundary c') (fits : c'.Fits boundary parts c'') :
    c.Fits boundary parts c'' where
  step := step.trans fits.step
  inOrder := fits.inOrder.mono step.here_le (Nat.le_refl _)
  valid := fits.valid
  clean := fits.clean

theorem append (first : c.Fits boundary left c') (second : c'.Fits boundary right c'') :
    c.Fits boundary (left ++ right) c'' where
  step := first.step.trans second.step
  inOrder := first.inOrder.append second.inOrder first.step.here_le second.step.here_le
  valid := List.forall_mem_append.mpr ⟨first.valid, second.valid⟩
  clean clean := List.forall_mem_append.mpr
    ⟨(first.later second.step).clean clean, second.clean clean⟩

/-- A node that starts no later than the parts and, where no error was found, ends no
earlier than the last token. -/
theorem around (fits : c.Fits boundary parts c') (valid : span.Valid boundary)
    (start : span.start ≤ c.here) (stop : c'.errors = [] → c'.lastEnd ≤ span.stop)
    (filled : c'.errors = [] → ∀ word ∈ words, word ≠ "") :
    ((Outline.node words span parts).Every fun node => node.span.Valid boundary) ∧
      (c'.errors = [] → (Outline.node words span parts).Every fun node =>
        node.Nested ∧ node.Filled) := by
  refine ⟨.intro valid fits.valid, fun clean => ?_⟩
  have parts_clean := fits.clean clean
  have nested : (Outline.node words span parts).Nested := by
    refine ⟨fun part member => ⟨?_, ?_⟩, fits.inOrder.pairwise⟩
    · exact Nat.le_trans start (fits.inOrder.of_mem part member).1
    · exact Nat.le_trans (parts_clean part member).1 (stop clean)
  exact .intro ⟨nested, filled clean⟩ fun part member => (parts_clean part member).2

/-- A node around the parts, from the first cursor to an end that no part exceeds. -/
theorem node {high : Nat} (fits : c.Fits boundary parts c') (isBoundary : boundary high)
    (ordered : c.here ≤ high) (le_here : high ≤ c'.here)
    (exact : c'.errors = [] → high = c'.lastEnd)
    (filled : c'.errors = [] → ∀ word ∈ words, word ≠ "") :
    c.Spans boundary (.node words ⟨c.here, high⟩ parts) c' := by
  have stop (clean : c'.errors = []) : c'.lastEnd ≤ high := Nat.le_of_eq (exact clean).symm
  have place : (⟨c.here, high⟩ : Span).Valid boundary := ⟨ordered, fits.step.start.here, isBoundary⟩
  obtain ⟨valid, nested⟩ := fits.around place (Nat.le_refl _) stop filled
  refine ⟨⟨fits.step, ⟨Nat.le_refl _, ordered, le_here, trivial⟩, ?_, fun clean => ?_⟩, rfl, exact⟩
  · exact List.forall_mem_singleton.mpr valid
  · exact List.forall_mem_singleton.mpr ⟨Nat.le_of_eq (exact clean), nested clean⟩

/-- A node that ends where something ends that was read last. -/
theorem upTo (fits : c.Fits boundary parts c') (before : c.Step boundary c₁)
    (last : c₁.Spans boundary outline c')
    (filled : c'.errors = [] → ∀ word ∈ words, word ≠ "") :
    c.Spans boundary (.node words ⟨c.here, outline.span.stop⟩ parts) c' := by
  obtain ⟨start, ordered, stop, -⟩ := last.fits.inOrder
  have isBoundary := (last.fits.valid outline (List.mem_singleton_self _)).self.stop
  exact fits.node isBoundary (Nat.le_trans before.here_le (Nat.le_trans start ordered)) stop
    last.stop filled

/-- A node without words that ends with a token behind its parts. -/
theorem closed (fits : c.Fits boundary parts c') (closing : c'.Spans boundary token.outline c'') :
    c.Spans boundary (.node [] ⟨c.here, token.span.stop⟩ parts) c'' :=
  (fits.later closing.fits.step).upTo fits.step closing wordless

/-- A node that ends with the last token, or where something ended before that. -/
theorem upToLast (fits : c.Fits boundary parts c') (before : c.Step boundary c₁)
    (reached : c₁.Spans boundary outline c₂) (behind : c₂.Step boundary c')
    (filled : c'.errors = [] → ∀ word ∈ words, word ≠ "") :
    c.Spans boundary (.node words ⟨c.here, max c'.lastEnd outline.span.stop⟩ parts) c' := by
  obtain ⟨start, ordered, stop, -⟩ := reached.fits.inOrder
  have isBoundary := (reached.fits.valid outline (List.mem_singleton_self _)).self.stop
  have := before.here_le
  have := behind.here_le
  have := behind.lastEnd_le
  have := fits.step.sound.lastEnd_le_here
  refine fits.node (fits.step.sound.max_lastEnd isBoundary) (by omega) (by omega)
    (fun clean => ?_) filled
  have := reached.stop (behind.clean clean)
  omega

/-- A node that ends with the last token. -/
theorem since (fits : c.Fits boundary parts c') (passed : c.here ≤ c'.lastEnd)
    (filled : c'.errors = [] → ∀ word ∈ words, word ≠ "") :
    c.Spans boundary (.node words (c'.since c.here) parts) c' := by
  have := fits.step.sound.lastEnd_le_here
  have isBoundary := fits.step.sound.max_lastEnd fits.step.start.here
  exact fits.node isBoundary (by omega) (by omega) (fun _ => by omega) filled

/-- A node without parts that may be empty, in front of something that is not. -/
theorem sinceBefore (step : c.Step boundary c') (behind : c'.Step boundary c'')
    (passed : c.here ≤ c''.lastEnd) (filled : c'.errors = [] → ∀ word ∈ words, word ≠ "") :
    c.Fits boundary [.node words (c'.since c.here) []] c'' := by
  have stop : (c'.since c.here).stop ≤ c''.here := by
    have := step.sound.lastEnd_le_here
    exact Nat.max_le.mpr ⟨Nat.le_trans this behind.here_le, (step.trans behind).here_le⟩
  have place : (c'.since c.here).Valid boundary :=
    ⟨Nat.le_max_right _ _, step.start.here, step.sound.max_lastEnd step.start.here⟩
  obtain ⟨valid, nested⟩ :=
    (nil step).around place (Nat.le_refl _) (fun _ => Nat.le_max_left _ _) filled
  refine ⟨step.trans behind, ⟨Nat.le_refl _, place.ordered, stop, trivial⟩, ?_, fun clean => ?_⟩
  · exact List.forall_mem_singleton.mpr valid
  · refine List.forall_mem_singleton.mpr ⟨?_, nested (behind.clean clean)⟩
    exact Nat.max_le.mpr ⟨behind.lastEnd_le, passed⟩

end Fits

namespace Spans

variable {first last : Outline}

theorem step (spans : c.Spans boundary outline c') : c.Step boundary c' := spans.fits.step

theorem sound (spans : c.Spans boundary outline c') : c'.Sound boundary := spans.step.sound

theorem bounds (spans : c.Spans boundary outline c') :
    c.here ≤ outline.span.stop ∧ outline.span.stop ≤ c'.here := by
  obtain ⟨start, ordered, stop, -⟩ := spans.fits.inOrder
  exact ⟨Nat.le_trans start ordered, stop⟩

theorem filled (spans : c.Spans boundary outline c') (clean : c'.errors = []) : outline.Filled :=
  (spans.fits.clean clean outline (List.mem_singleton_self _)).2.self.2

theorem stop_le (one : c.Spans boundary first c₁) (between : c₁.Step boundary c₂)
    (two : c₂.Spans boundary last c') : first.span.stop ≤ last.span.stop :=
  Nat.le_trans one.bounds.2 (Nat.le_trans between.here_le two.bounds.1)

/-- Two things that were read one after the other are covered from the first to the last. -/
theorem cover_eq (one : c.Spans boundary first c₁) (between : c₁.Step boundary c₂)
    (two : c₂.Spans boundary last c') :
    first.span.cover last.span = ⟨c.here, last.span.stop⟩ := by
  have := one.start
  have := one.bounds
  have := two.start
  have := two.bounds
  have := between.here_le
  have := one.step.here_le
  simp only [Span.cover, Span.mk.injEq]
  omega

/-- A hole stands where an error was found. -/
theorem hole (step : c.Step boundary c') (valid : span.Valid boundary) (start : span.start = c.here)
    (stop : span.stop ≤ c'.here) (errors : c'.errors ≠ []) : c.Spans boundary (.hole span) c' where
  fits := by
    refine ⟨step, ⟨Nat.le_of_eq start.symm, valid.ordered, stop, trivial⟩, ?_, fun clean => ?_⟩
    · exact List.forall_mem_singleton.mpr (.intro valid (List.forall_mem_nil _))
    · exact absurd clean errors
  start := start
  stop clean := absurd clean errors

/-- A placeholder stands where an error was found. -/
theorem placeholder (step : c.Step boundary c') (errors : c'.errors ≠ []) (words : List String) :
    c.Spans boundary (.node words (.point c.here) []) c' :=
  (Fits.nil step).node step.start.here (Nat.le_refl _) step.here_le
    (fun clean => absurd clean errors) fun clean => absurd clean errors

end Spans

theorem Sound.read (sound : c.Sound boundary) (found : c.rest = token :: rest) :
    c.Read boundary token c.next := by
  obtain ⟨valid, nonempty, start, stop⟩ := sound.head found
  have passed := sound.here_le_lastEnd_next found
  refine ⟨?_, passed, c.left_next found⟩
  have place : token.span = ⟨c.here, c.next.lastEnd⟩ := by rw [← start, ← stop]
  rw [Token.outline, Outline.leaf, place]
  exact (Fits.nil sound.step_next).node (stop ▸ valid.stop) passed sound.next.lastEnd_le_here
    (fun _ => rfl) fun _ => List.forall_mem_singleton.mpr nonempty

/-- Behind a token there is room for what reads from fewer tokens. -/
theorem Read.room {bound : Nat} (read : c.Read boundary token c') (room : c.left ≤ bound) :
    c'.left < bound := Nat.lt_of_lt_of_le read.left_lt room

/-- A token that is a node of its own without words. -/
theorem Read.plain {token : Token} {c' : Cursor} (read : c.Read boundary token c') :
    c.Spans boundary (.node [] token.span []) c' := by
  have start : token.span.start = c.here := read.spans.start
  have spans := (Fits.nil read.spans.step).upTo (.refl read.spans.step.start) read.spans
    wordless
  have place : token.span = ⟨c.here, token.outline.span.stop⟩ := by rw [← start]; rfl
  rwa [place]

end Cursor

namespace Parser

open Cursor

variable {α : Type} {c : Cursor} {token : Token} {rest : List Token} {kind : TokenKind}

theorem advance_leads (sound : c.Sound boundary) (found : c.rest = token :: rest) :
    Leads boundary advance c fun _ c' => c.Read boundary token c' :=
  ⟨sound.step_next, sound.read found⟩

theorem advance?_leads (sound : c.Sound boundary) :
    Leads boundary advance? c fun token c' =>
      match token with
      | some token => c.Read boundary token c'
      | none => c' = c ∧ c.rest = [] := by
  refine ⟨sound.step_next, ?_⟩
  cases found : c.rest with
  | nil =>
    simp only [advance?, found, List.head?_nil, and_true]
    simp only [next, found]
  | cons token rest =>
    simp only [advance?, found, List.head?_cons]
    exact sound.read found

private theorem expectAs_leads (wanted : Wanted) (sound : c.Sound boundary) :
    Leads boundary (expectAs kind wanted) c fun token c' => c.Spans boundary token.outline c' := by
  have step := sound.step_report wanted
  rcases expectAs_cases kind wanted c with ⟨token, rest, found, _, read⟩ | missing
  · constructor <;> rw [read]
    · exact sound.step_next
    · exact (sound.read found).spans
  · constructor <;> rw [missing]
    · exact step
    · exact Spans.placeholder step (c.errors_report wanted) [""]

theorem expect_leads (sound : c.Sound boundary) :
    Leads boundary (expect kind) c fun token c' => c.Spans boundary token.outline c' :=
  expectAs_leads _ sound

/-- Where a token of the kind stands, it is read. -/
theorem expect_reads (sound : c.Sound boundary) (atIt : c.atKind kind = true) :
    Leads boundary (expect kind) c fun token c' => c.Read boundary token c' := by
  obtain ⟨token, rest, found, isKind⟩ := exists_of_atKind atIt
  constructor <;> rw [expect_eq found isKind]
  · exact sound.step_next
  · exact sound.read found

theorem report_leads (wanted : Wanted) (sound : c.Sound boundary) :
    Leads boundary (report wanted) c fun _ c' => c' = c.report wanted :=
  ⟨sound.step_report wanted, rfl⟩

/-- What a collecting parser yields stands in order. -/
theorem collect_leads {step : Parser (Option (List α))} {outline : α → Outline}
    (sound : c.Sound boundary) (steps : ∀ c', c.Step boundary c' → Leads boundary step c'
      fun values c'' => c'.Fits boundary ((values.getD []).map outline) c'') :
    Leads boundary (collect step) c fun values c' => c.Fits boundary (values.map outline) c' := by
  -- The outlines are those between where a repetition stands and where it ends.
  have within (limit : Nat) (c' : Cursor) (reached : c.Step boundary c') :
      Leads boundary (collectWithin step limit) c' fun values c'' =>
        c'.Fits boundary (values.map outline) c'' := by
    induction limit generalizing c' with
    | zero => exact .pure reached.sound (.nil (.refl reached.sound))
    | succ limit ih =>
      refine (steps c' reached).bind fun values c₁ step₁ fits => ?_
      cases values with
      | none => exact .pure step₁.sound fits
      | some values =>
        refine (ih c₁ (reached.trans step₁)).bind fun others c₂ step₂ fitsOthers => ?_
        refine .pure step₂.sound ?_
        rw [List.map_append]
        exact fits.append fitsOthers
  exact .get (within _ c (.refl sound))

end Parser
end MethodContracts.Source
