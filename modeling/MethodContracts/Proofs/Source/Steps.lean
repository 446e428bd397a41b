import MethodContracts.Proofs.Source.Lookahead

/-!
# Steps of a parser

Where the cursor of a parser may stand, and how a run of the parser takes it from one such
place to a later one. A run is followed from bind to bind by `Leads`, which carries along
what is known of the values that were read.
-/
namespace MethodContracts

/-- The span has its ends in order and at places of this kind. -/
structure Span.Valid (boundary : Nat → Prop) (span : Span) : Prop where
  ordered : span.start ≤ span.stop
  start : boundary span.start
  stop : boundary span.stop

section Span

variable {boundary : Nat → Prop}

private theorem boundary_max {first second : Nat} (one : boundary first) (two : boundary second) :
    boundary (max first second) := by
  rcases Nat.le_total first second with le | le
  · rwa [Nat.max_eq_right le]
  · rwa [Nat.max_eq_left le]

theorem Span.Valid.point {offset : Nat} (isBoundary : boundary offset) :
    (Span.point offset).Valid boundary := ⟨Nat.le_refl _, isBoundary, isBoundary⟩

end Span

namespace Source

variable {boundary : Nat → Prop}

/-- The tokens have text and stand one behind the other from `low` to `high`. -/
def Ranged (boundary : Nat → Prop) : Nat → List Token → Nat → Prop
  | low, [], high => low ≤ high
  | low, token :: rest, high =>
    low ≤ token.span.start ∧ token.span.Valid boundary ∧ token.text ≠ "" ∧
      Ranged boundary token.span.stop rest high

namespace Cursor

/-- What is left to read stands behind what was read, and every error has its place. -/
structure Sound (boundary : Nat → Prop) (c : Cursor) : Prop where
  tokens : Ranged boundary c.lastEnd c.rest c.textEnd
  textEnd : boundary c.textEnd
  lastEnd : c.lastEnd = 0 ∨ boundary c.lastEnd
  errors : ∀ error ∈ c.errors, error.span.Valid boundary

/-- The cursor `c'` can be reached from `c`. -/
structure Step (boundary : Nat → Prop) (c c' : Cursor) : Prop where
  before : c.Before c'
  start : c.Sound boundary
  sound : c'.Sound boundary
  here_le : c.here ≤ c'.here
  lastEnd_le : c.lastEnd ≤ c'.lastEnd
  textEnd_eq : c'.textEnd = c.textEnd

variable {c c' c'' : Cursor} {token : Token} {rest : List Token} {kind : TokenKind}

namespace Sound

theorem here (sound : c.Sound boundary) : boundary c.here := by
  have ranged := sound.tokens
  unfold Cursor.here
  split
  next token rest found =>
    rw [found] at ranged
    exact ranged.2.1.start
  next => exact sound.textEnd

theorem lastEnd_le_here (sound : c.Sound boundary) : c.lastEnd ≤ c.here := by
  have ranged := sound.tokens
  unfold Cursor.here
  split
  next token rest found =>
    rw [found] at ranged
    exact ranged.1
  next found =>
    rw [found] at ranged
    exact ranged

theorem place (sound : c.Sound boundary) : c.place.Valid boundary := by
  have ranged := sound.tokens
  unfold Cursor.place
  split
  next token rest found =>
    rw [found] at ranged
    exact ranged.2.1
  next => exact .point sound.textEnd

theorem lastEnd_le_textEnd (sound : c.Sound boundary) : c.lastEnd ≤ c.textEnd := by
  have within (tokens : List Token) (low : Nat) (ranged : Ranged boundary low tokens c.textEnd) :
      low ≤ c.textEnd := by
    induction tokens generalizing low with
    | nil => exact ranged
    | cons token rest ih =>
      have := ih _ ranged.2.2.2
      have := ranged.1
      have := ranged.2.1.ordered
      omega
  exact within _ _ sound.tokens

/-- The later of the last end and a boundary is a boundary, also before the first token. -/
theorem max_lastEnd (sound : c.Sound boundary) {offset : Nat} (isBoundary : boundary offset) :
    boundary (max c.lastEnd offset) := by
  rcases sound.lastEnd with zero | read
  · rwa [zero, Nat.zero_max]
  · exact boundary_max read isBoundary

theorem next (sound : c.Sound boundary) : c.next.Sound boundary := by
  have ranged := sound.tokens
  unfold Cursor.next
  split
  next token rest found =>
    rw [found] at ranged
    exact ⟨ranged.2.2.2, sound.textEnd, .inr ranged.2.1.stop, sound.errors⟩
  next => exact sound

theorem report (sound : c.Sound boundary) (wanted : Wanted) :
    (c.report wanted).Sound boundary where
  tokens := sound.tokens
  textEnd := sound.textEnd
  lastEnd := sound.lastEnd
  errors error member := by
    rcases List.mem_append.mp member with old | new
    · exact sound.errors error old
    · rw [List.mem_singleton.mp new]
      exact sound.place

/-- Where the next token stands. -/
theorem head (sound : c.Sound boundary) (found : c.rest = token :: rest) :
    token.span.Valid boundary ∧ token.text ≠ "" ∧ token.span.start = c.here ∧
      token.span.stop = c.next.lastEnd := by
  have ranged := sound.tokens
  rw [found] at ranged
  refine ⟨ranged.2.1, ranged.2.2.1, ?_, ?_⟩
  · simp only [Cursor.here, found]
  · simp only [Cursor.next, found]

end Sound

namespace Step

theorem refl (sound : c.Sound boundary) : c.Step boundary c :=
  ⟨.refl c, sound, sound, Nat.le_refl _, Nat.le_refl _, rfl⟩

theorem trans (first : c.Step boundary c') (second : c'.Step boundary c'') :
    c.Step boundary c'' where
  before := first.before.trans second.before
  start := first.start
  sound := second.sound
  here_le := Nat.le_trans first.here_le second.here_le
  lastEnd_le := Nat.le_trans first.lastEnd_le second.lastEnd_le
  textEnd_eq := second.textEnd_eq.trans first.textEnd_eq

theorem left_le (step : c.Step boundary c') : c'.left ≤ c.left := step.before.left_le

theorem room_lt {bound : Nat} (step : c.Step boundary c') (room : c.left < bound) :
    c'.left < bound := Nat.lt_of_le_of_lt step.left_le room

theorem room_le {bound : Nat} (step : c.Step boundary c') (room : c.left ≤ bound) :
    c'.left ≤ bound := Nat.le_trans step.left_le room

/-- Without errors at the later cursor there were none at the earlier one. -/
theorem clean (step : c.Step boundary c') (clean : c'.errors = []) : c.errors = [] :=
  List.prefix_nil.mp (clean ▸ step.before.errors)

end Step

/-- Reading a token passes the place where it stands. -/
theorem Sound.here_le_lastEnd_next (sound : c.Sound boundary) (found : c.rest = token :: rest) :
    c.here ≤ c.next.lastEnd := by
  obtain ⟨valid, -, start, stop⟩ := sound.head found
  have := valid.ordered
  omega

theorem Sound.here_le_textEnd (sound : c.Sound boundary) : c.here ≤ c.textEnd := by
  cases found : c.rest with
  | nil => simp only [Cursor.here, found, Nat.le_refl]
  | cons token rest =>
    have reached := sound.next.lastEnd_le_textEnd
    have textEnd : c.next.textEnd = c.textEnd := by simp only [Cursor.next, found]
    exact textEnd ▸ Nat.le_trans (sound.here_le_lastEnd_next found) reached

theorem Sound.step_next (sound : c.Sound boundary) : c.Step boundary c.next := by
  have lastEnd_le := sound.lastEnd_le_here
  have next_le := sound.next.lastEnd_le_here
  cases found : c.rest with
  | nil =>
    have same : c.next = c := by simp only [Cursor.next, found]
    rw [same]
    exact .refl sound
  | cons token rest =>
    have passed := sound.here_le_lastEnd_next found
    refine ⟨c.before_next, sound, sound.next, by omega, by omega, ?_⟩
    simp only [Cursor.next, found]

theorem Sound.step_report (sound : c.Sound boundary) (wanted : Wanted) :
    c.Step boundary (c.report wanted) :=
  ⟨c.before_report wanted, sound, sound.report wanted, Nat.le_refl _, Nat.le_refl _, rfl⟩

/-- Going back to an earlier cursor with the errors that were found since. -/
theorem Step.rewind (step : c.Step boundary c') :
    c.Step boundary { c with errors := c'.errors } where
  before := ⟨List.suffix_rfl, step.before.errors⟩
  start := step.start
  sound := ⟨step.start.tokens, step.start.textEnd, step.start.lastEnd, step.sound.errors⟩
  here_le := Nat.le_refl _
  lastEnd_le := Nat.le_refl _
  textEnd_eq := rfl

/-- What is reached from a sound cursor is reached by steps. -/
def Reaches (boundary : Nat → Prop) (c c' : Cursor) : Prop :=
  c.Sound boundary → c.Step boundary c'

instance : Tracks (Reaches boundary) where
  refl _ sound := .refl sound
  trans first second sound := (first sound).trans (second (first sound).sound)
  next _ sound := sound.step_next
  report _ wanted sound := sound.step_report wanted

theorem errors_report (wanted : Wanted) : (c.report wanted).errors ≠ [] := by
  simp [Cursor.report]

theorem left_next (found : c.rest = token :: rest) : c.next.left < c.left := by
  simp [left, next, found]

end Cursor

namespace Parser

open Cursor

variable {α β : Type} {c : Cursor} {value : α}

/-- From the cursor the parser reads on to a sound one, and the value that it yields there
is as `post` says. -/
structure Leads (boundary : Nat → Prop) (parser : Parser α) (c : Cursor)
    (post : α → Cursor → Prop) : Prop where
  step : c.Step boundary (parser c).2
  post : post (parser c).1 (parser c).2

/-- Wherever the parser ends, what it yields there is as `post` says. -/
def Ensures (parser : Parser α) (c : Cursor) (post : α → Cursor → Prop) : Prop :=
  post (parser c).1 (parser c).2

/-- The parser reads on from every sound cursor. -/
def Passes (boundary : Nat → Prop) (parser : Parser α) : Prop :=
  ∀ c : Cursor, c.Sound boundary → Leads boundary parser c fun _ _ => True

namespace Leads

variable {parser : Parser α} {next : α → Parser β} {post : α → Cursor → Prop}
  {last : β → Cursor → Prop}

theorem pure (sound : c.Sound boundary) (holds : post value c) :
    Leads boundary (Pure.pure value) c post := ⟨.refl sound, holds⟩

theorem bind (first : Leads boundary parser c post)
    (rest : ∀ value c', c.Step boundary c' → post value c' → Leads boundary (next value) c' last) :
    Leads boundary (parser >>= next) c last := by
  have second := rest _ _ first.step first.post
  exact ⟨first.step.trans second.step, second.post⟩

theorem get {next : Cursor → Parser α} (rest : Leads boundary (next c) c post) :
    Leads boundary (get >>= next) c post := ⟨rest.step, rest.post⟩

theorem pure_bind {next : α → Parser β} (rest : Leads boundary (next value) c last) :
    Leads boundary (Pure.pure value >>= next) c last := ⟨rest.step, rest.post⟩

theorem mono {post' : α → Cursor → Prop} (leads : Leads boundary parser c post)
    (implies : ∀ value c', c.Step boundary c' → post value c' → post' value c') :
    Leads boundary parser c post' where
  step := leads.step
  post := implies _ _ leads.step leads.post

/-- A parser that may go back leads on if it ends behind the cursor where it began. -/
theorem of_ensures (ensures : Ensures parser c fun value c' => c.Step boundary c' ∧ post value c') :
    Leads boundary parser c post := ⟨ensures.1, ensures.2⟩

theorem ensures {c₀ : Cursor} (before : c₀.Step boundary c) (leads : Leads boundary parser c post) :
    Ensures parser c fun value c' => c₀.Step boundary c' ∧ post value c' :=
  ⟨before.trans leads.step, leads.post⟩

theorem after (first : Leads boundary parser c post)
    (rest : ∀ value c', c.Step boundary c' → post value c' → Ensures (next value) c' last) :
    Ensures (parser >>= next) c last := rest _ _ first.step first.post

theorem map {f : α → β} (leads : Leads boundary parser c post)
    (implies : ∀ value c', c.Step boundary c' → post value c' → last (f value) c') :
    Leads boundary (f <$> parser) c last where
  step := leads.step
  post := implies _ _ leads.step leads.post

theorem ite {condition : Prop} [Decidable condition] {first second : Parser α}
    (whenTrue : condition → Leads boundary first c post)
    (whenFalse : ¬condition → Leads boundary second c post) :
    Leads boundary (if condition then first else second) c post := by
  split
  next holds => exact whenTrue holds
  next fails => exact whenFalse fails

section Repetition

variable {step : α → Parser (Option α)}

theorem iterateWithin (sound : c.Sound boundary) (start : post value c)
    (steps : ∀ value c', c.Step boundary c' → post value c' →
      Leads boundary (step value) c' fun next c'' => post (next.getD value) c'') (limit : Nat) :
    Leads boundary (iterateWithin step limit value) c post := by
  induction limit generalizing value c with
  | zero => exact .pure sound start
  | succ limit ih =>
    apply (steps value c (.refl sound) start).bind
    intro next c' reached kept
    cases next with
    | none => exact .pure reached.sound kept
    | some next =>
      apply ih reached.sound kept
      intro value c'' further
      exact steps value c'' (reached.trans further)

/-- What every step of a repetition keeps holds in the end. -/
theorem iterate (sound : c.Sound boundary) (start : post value c)
    (steps : ∀ value c', c.Step boundary c' → post value c' →
      Leads boundary (step value) c' fun next c'' => post (next.getD value) c'') :
    Leads boundary (iterate step value) c post :=
  .get (iterateWithin sound start steps _)

/-- If the first step of a repetition is taken, nothing has to hold before it. -/
theorem iterate_first (nonempty : c.rest ≠ [])
    (first : Leads boundary (step value) c fun next c' => ∃ value ∈ next, post value c')
    (steps : ∀ value c', c.Step boundary c' → post value c' →
      Leads boundary (step value) c' fun next c'' => post (next.getD value) c'') :
    Leads boundary (Parser.iterate step value) c post := by
  obtain ⟨token, rest, found⟩ := List.exists_cons_of_ne_nil nonempty
  apply Leads.get
  rw [left, found, List.length_cons]
  apply first.bind
  intro next c' reached taken
  obtain ⟨value, rfl, kept⟩ := taken
  apply iterateWithin reached.sound kept
  intro value c'' further
  exact steps value c'' (reached.trans further)

end Repetition

end Leads

/-- A parser that only moves on reads on from every sound cursor. -/
theorem Along.passes {parser : Parser α} (moves : parser.Along (Reaches boundary)) :
    Passes boundary parser := fun c sound => ⟨moves c sound, trivial⟩

end Parser
end Source
end MethodContracts
