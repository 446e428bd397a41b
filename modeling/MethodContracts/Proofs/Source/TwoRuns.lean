import MethodContracts.Proofs.Source.Relocation
import MethodContracts.Proofs.Source.Repetition

/-!
# Two runs of a parser

One run reads some tokens, the other the same tokens at other places, with closing braces
behind them that the first run does not see. As long as the first run is not at the end of its
tokens, both take the same decisions and read the same tree, up to its places. A run that
needs to know what stands behind the last token parts from the other one there; then the first
run has no token left.
-/
namespace MethodContracts.Source

/-- How the tokens of the second run come from those of the first. -/
structure Frame where
  move : Nat → Nat
  keeps : Monotone move
  /-- What stands behind the tokens of the first run. -/
  tail : List Token
  closes : ∀ token ∈ tail, token.kind = .closeBrace

theorem Frame.closes_nothing : ∀ token ∈ ([] : List Token), token.kind = .closeBrace :=
  List.forall_mem_nil _

def Parser.NameText.moved (move : Nat → Nat) (name : NameText) : NameText :=
  { name with stop := move name.stop }

def Parser.GroupText.moved (move : Nat → Nat) (group : GroupText) : GroupText :=
  { group with stop := move group.stop }

namespace Frame

variable {frame : Frame} {c c' : Cursor} {token : Token} {rest : List Token} {kind : TokenKind}

/-- The cursors stand at the same token, and the same errors were found before it. -/
structure Alike (frame : Frame) (c c' : Cursor) : Prop where
  rest : c'.rest = c.rest.map (Token.moved frame.move) ++ frame.tail
  lastEnd : ∀ place, max c'.lastEnd (frame.move place) = frame.move (max c.lastEnd place)
  textEnd : frame.tail = [] → c'.textEnd = frame.move c.textEnd
  errors : c'.errors = c.errors.map (SyntaxError.moved frame.move)

/-- Both runs see what stands at the cursor. -/
def Inside (frame : Frame) (c : Cursor) : Prop := frame.tail = [] ∨ c.rest ≠ []

/-- The first run is at its end, and the second one is not. -/
def Past (frame : Frame) (c : Cursor) : Prop := frame.tail ≠ [] ∧ c.rest = []

theorem past_of_not_inside (outside : ¬frame.Inside c) : frame.Past c :=
  ⟨fun untailed => outside (.inl untailed),
    Classical.not_not.mp fun more => outside (.inr more)⟩

theorem Past.later (past : frame.Past c) (before : c.Before c') : frame.Past c' :=
  ⟨past.1, List.suffix_nil.mp (past.2 ▸ before.rest)⟩

/-- The cursor of the second run where the first one stands at `c`. -/
def partner (frame : Frame) (c : Cursor) : Cursor where
  rest := c.rest.map (Token.moved frame.move) ++ frame.tail
  lastEnd := frame.move c.lastEnd
  textEnd := frame.move c.textEnd
  errors := c.errors.map (SyntaxError.moved frame.move)

theorem alike_partner (frame : Frame) (c : Cursor) : frame.Alike c (frame.partner c) :=
  ⟨rfl, fun _ => frame.keeps.map_max.symm, fun _ => rfl, rfl⟩

namespace Alike

theorem rest_cons (alike : frame.Alike c c') (found : c.rest = token :: rest) :
    c'.rest = token.moved frame.move ::
      (rest.map (Token.moved frame.move) ++ frame.tail) := by
  rw [alike.rest, found, List.map_cons, List.cons_append]

theorem rest_nil (alike : frame.Alike c c') (inside : frame.Inside c) (atEnd : c.rest = []) :
    c'.rest = [] := by
  rw [alike.rest, atEnd, inside.resolve_right fun more => more atEnd]
  rfl

theorem left (alike : frame.Alike c c') : c'.left = c.left + frame.tail.length := by
  rw [Cursor.left, alike.rest, List.length_append, List.length_map]
  rfl

/-- Either run reads a token if the other one does. -/
theorem left_beq {c₁ c₁' : Cursor} (alike : frame.Alike c c') (alike₁ : frame.Alike c₁ c₁') :
    (c₁'.left == c'.left) = (c₁.left == c.left) := by
  rw [alike.left, alike₁.left, Bool.eq_iff_iff, beq_iff_eq, beq_iff_eq]
  omega

/-- What the second run sees is what the first one sees, or a brace behind its end. -/
theorem getElem? (alike : frame.Alike c c') (n : Nat) :
    c'.rest[n]? = (c.rest[n]?).map (Token.moved frame.move) ∨
      c.rest[n]? = none ∧ ∃ brace, c'.rest[n]? = some brace ∧ brace.kind = .closeBrace := by
  rw [alike.rest]
  rcases Nat.lt_or_ge n c.rest.length with within | behind
  · left
    rw [List.getElem?_append_left (by rwa [List.length_map]), List.getElem?_map]
  · have unseen : c.rest[n]? = none := List.getElem?_eq_none behind
    rw [List.getElem?_append_right (by rwa [List.length_map]), List.length_map, unseen]
    cases seen : frame.tail[n - c.rest.length]? with
    | none => exact .inl rfl
    | some brace => exact .inr ⟨rfl, brace, rfl, frame.closes brace (List.mem_of_getElem? seen)⟩

/-! ### Tests that no closing brace passes -/

theorem atNth (alike : frame.Alike c c') (n : Nat) (other : kind ≠ .closeBrace) :
    c'.atNth n kind = c.atNth n kind := by
  unfold Cursor.atNth
  rcases alike.getElem? n with same | ⟨unseen, brace, seen, isBrace⟩
  · rw [same, Option.map_map]
    rfl
  · rw [unseen, seen, Option.map_some, isBrace]
    simp [Ne.symm other]

theorem nthWord (alike : frame.Alike c c') (n : Nat) (word : String) :
    c'.nthWord n word = c.nthWord n word := by
  unfold Cursor.nthWord
  rcases alike.getElem? n with same | ⟨unseen, brace, seen, isBrace⟩
  · rw [same]
    cases c.rest[n]? <;> rfl
  · rw [unseen, seen]
    simp [isBrace]

theorem atWord (alike : frame.Alike c c') (word : String) : c'.atWord word = c.atWord word :=
  alike.nthWord 0 word

theorem kind?_eq (c : Cursor) : c.kind? = (c.rest[0]?).map (·.kind) := by
  rw [Cursor.kind?, List.head?_eq_getElem?]

theorem atKind (alike : frame.Alike c c') (other : kind ≠ .closeBrace) :
    c'.atKind kind = c.atKind kind := by
  have same := alike.atNth 0 other
  unfold Cursor.atNth at same
  unfold Cursor.atKind
  rwa [kind?_eq, kind?_eq]

theorem bind_kind? {α : Type} (alike : frame.Alike c c') {f : TokenKind → Option α}
    (other : f .closeBrace = none) : c'.kind?.bind f = c.kind?.bind f := by
  rw [kind?_eq, kind?_eq]
  rcases alike.getElem? 0 with same | ⟨unseen, brace, seen, isBrace⟩
  · rw [same, Option.map_map]
    rfl
  · rw [unseen, seen, Option.map_some, isBrace]
    exact other

theorem word (alike : frame.Alike c c') : c'.word = c.word := by
  unfold Cursor.word
  cases found : c.rest with
  | cons token rest =>
    rw [alike.rest_cons found]
    rfl
  | nil =>
    cases seen : c'.rest with
    | nil => rfl
    | cons brace more =>
      have isBrace : brace.kind = .closeBrace := frame.closes brace (by
        have behind := alike.rest
        rw [found, List.map_nil, List.nil_append, seen] at behind
        exact behind ▸ List.mem_cons_self)
      exact if_neg (by rw [isBrace]; nofun)

/-! ### What is seen at a cursor inside -/

theorem atKind_inside (alike : frame.Alike c c') (inside : frame.Inside c) (kind : TokenKind) :
    c'.atKind kind = c.atKind kind := by
  unfold Cursor.atKind Cursor.kind?
  cases found : c.rest with
  | nil => rw [alike.rest_nil inside found]
  | cons token rest =>
    rw [alike.rest_cons found]
    rfl

theorem atEnd (alike : frame.Alike c c') (inside : frame.Inside c) : c'.atEnd = c.atEnd := by
  unfold Cursor.atEnd
  cases found : c.rest with
  | nil => rw [alike.rest_nil inside found]
  | cons token rest =>
    rw [alike.rest_cons found]
    rfl

theorem here (alike : frame.Alike c c') (inside : frame.Inside c) :
    c'.here = frame.move c.here := by
  unfold Cursor.here
  cases found : c.rest with
  | nil =>
    rw [alike.rest_nil inside found]
    exact alike.textEnd (inside.resolve_right fun more => more found)
  | cons token rest =>
    rw [alike.rest_cons found]
    rfl

theorem place (alike : frame.Alike c c') (inside : frame.Inside c) :
    c'.place = c.place.moved frame.move := by
  unfold Cursor.place
  cases found : c.rest with
  | nil =>
    rw [alike.rest_nil inside found,
      alike.textEnd (inside.resolve_right fun more => more found)]
    rfl
  | cons token rest =>
    rw [alike.rest_cons found]
    rfl

theorem since (alike : frame.Alike c c') (start : Nat) :
    c'.since (frame.move start) = (c.since start).moved frame.move := by
  simp only [Cursor.since, Span.moved, alike.lastEnd start]

/-! ### How alike cursors move -/

theorem next (alike : frame.Alike c c') (inside : frame.Inside c) :
    frame.Alike c.next c'.next := by
  unfold Cursor.next
  cases found : c.rest with
  | nil => rw [alike.rest_nil inside found]; exact alike
  | cons token rest =>
    rw [alike.rest_cons found]
    exact ⟨rfl, fun _ => frame.keeps.map_max.symm, alike.textEnd, alike.errors⟩

theorem report (alike : frame.Alike c c') (inside : frame.Inside c) (wanted : Wanted) :
    frame.Alike (c.report wanted) (c'.report wanted) := by
  refine ⟨alike.rest, alike.lastEnd, alike.textEnd, ?_⟩
  simp only [Cursor.report, alike.errors, alike.place inside, List.map_append]
  rfl

end Alike

/-- Behind the tokens of the first run there are only closing braces. -/
theorem atKind_behind (behind : c'.rest <:+ frame.tail) (other : kind ≠ .closeBrace) :
    c'.atKind kind = false := by
  unfold Cursor.atKind Cursor.kind?
  cases found : c'.rest with
  | nil => rfl
  | cons brace rest =>
    have isBrace := frame.closes brace (behind.subset (found ▸ List.mem_cons_self))
    simp [isBrace, Ne.symm other]

/-- From cursors that are alike both parsers yield the same, up to places, at cursors that are
alike again, unless what happens to them is `lost`. -/
structure Follows {α : Type} (frame : Frame) (lost : Cursor → Cursor → Prop) (p p' : Parser α)
    (c c' : Cursor) (g : α → α) : Prop where
  before : c.Before (p c).2
  after : (p' c').1 = g (p c).1 ∧ frame.Alike (p c).2 (p' c').2 ∨ lost (p c).2 (p' c').2

/-- The parsers do the same unless the first one goes past its end. -/
abbrev Agrees {α : Type} (frame : Frame) (p p' : Parser α) (c c' : Cursor) (g : α → α) : Prop :=
  frame.Follows (fun end₁ _ => frame.Past end₁) p p' c c' g

/-- As `Agrees`, and where the first parser goes past its end the second one does, too. -/
abbrev Outruns {α : Type} (frame : Frame) (p p' : Parser α) (c c' : Cursor) (g : α → α) : Prop :=
  frame.Follows (fun end₁ end₂ => frame.Past end₁ ∧ end₂.rest <:+ frame.tail) p p' c c' g

/-- As `Agrees`, and where the first parser goes past its end it has found an error. -/
abbrev Notices {α : Type} (frame : Frame) (p p' : Parser α) (c c' : Cursor) (g : α → α) : Prop :=
  frame.Follows (fun end₁ _ => frame.Past end₁ ∧ end₁.errors ≠ []) p p' c c' g

/-- The readers of what is nested agree where fewer than `bound` tokens are left. -/
structure Agreeing {ι α : Type} (frame : Frame) (bound : Nat) (g : α → α)
    (nested nested' : ι → Parser α) : Prop where
  moves : ∀ index, (nested index).Moves
  moves' : ∀ index, (nested' index).Moves
  agrees : ∀ index (c c' : Cursor), frame.Alike c c' → c.left < bound →
    frame.Agrees (nested index) (nested' index) c c' g

section Depths

variable {ι α : Type} {g : α → α} (read : Nat → ι → Parser α)
  (moves : ∀ depth index, (read depth index).Moves)
  (step : ∀ depth depth', Agreeing frame depth g (read depth) (read depth') →
    ∀ index (c c' : Cursor), frame.Alike c c' → c.left ≤ depth →
      frame.Agrees (read (depth + 1) index) (read (depth' + 1) index) c c' g)
include moves step

/-- Readers that nest to some depth agree if they do where what they nest agrees. -/
theorem Agreeing.of_step {depth depth' : Nat} (deeper : depth ≤ depth') :
    Agreeing frame depth g (read depth) (read depth') where
  moves := moves depth
  moves' := moves depth'
  agrees := by
    -- By induction on the lesser depth, which bounds the tokens that are left.
    induction depth generalizing depth' with
    | zero => exact fun _ c _ _ room => absurd room (Nat.not_lt_zero _)
    | succ depth ih =>
      obtain ⟨deeper', rfl⟩ : ∃ further, depth' = further + 1 := ⟨depth' - 1, by omega⟩
      have nests : Agreeing frame depth g (read depth) (read deeper') :=
        ⟨moves depth, moves deeper', ih (by omega)⟩
      exact fun index c c' alike room =>
        step depth deeper' nests index c c' alike (Nat.le_of_lt_succ room)

/-- Where the depth is what is left, the readers agree. -/
theorem Agreeing.enough (alike : frame.Alike c c') (index : ι) :
    frame.Agrees (read (c.left + 1) index) (read (c'.left + 1) index) c c' g := by
  have deeper : c.left + 1 ≤ c'.left + 1 := by
    rw [alike.left]
    omega
  exact (Agreeing.of_step read moves step deeper).agrees index c c' alike (Nat.lt_succ_self _)

end Depths

namespace Follows

open Source.Parser

variable {α β : Type} {lost lost' : Cursor → Cursor → Prop} {p p' : Parser α} {g : α → α}
  {next next' : α → Parser β} {h : β → β} {value value' : α}

theorem pure (alike : frame.Alike c c') (same : value' = g value) :
    frame.Follows lost (Pure.pure value) (Pure.pure value') c c' g :=
  ⟨.refl c, .inl ⟨same, alike⟩⟩

theorem mono (follows : frame.Follows lost p p' c c' g)
    (implies : ∀ end₁ end₂, lost end₁ end₂ → lost' end₁ end₂) :
    frame.Follows lost' p p' c c' g :=
  ⟨follows.before, follows.after.imp_right (implies _ _)⟩

theorem get {next next' : Cursor → Parser β}
    (rest : frame.Follows lost (next c) (next' c') c c' h) :
    frame.Follows lost (get >>= next) (get >>= next') c c' h := ⟨rest.before, rest.after⟩

/-- What is never lost is the same, and so is where it ends if there is something. -/
theorem agreed {p p' : Parser (Option α)} {g : Option α → Option α}
    (follows : frame.Follows (fun _ _ => False) p p' c c' g) :
    (p' c').1 = g (p c).1 ∧ ((p c).1 ≠ none → frame.Alike (p c).2 (p' c').2) :=
  have ⟨same, alike⟩ := follows.after.resolve_right id
  ⟨same, fun _ => alike⟩

theorem pure_bind (rest : frame.Follows lost (next value) (next' value') c c' h) :
    frame.Follows lost (Pure.pure value >>= next) (Pure.pure value' >>= next') c c' h :=
  ⟨rest.before, rest.after⟩

theorem ite {q q' : Parser α} {condition condition' : Bool} (same : condition' = condition)
    (whenTrue : condition = true → frame.Follows lost p p' c c' g)
    (whenFalse : ¬condition = true → frame.Follows lost q q' c c' g) :
    frame.Follows lost (if condition then p else q) (if condition' then p' else q') c c' g := by
  subst same
  split
  next holds => exact whenTrue holds
  next fails => exact whenFalse fails

/-- As `ite`, for a test that does not look at the cursor. -/
theorem branch {q q' : Parser α} {condition : Prop} [Decidable condition]
    (whenTrue : condition → frame.Follows lost p p' c c' g)
    (whenFalse : ¬condition → frame.Follows lost q q' c c' g) :
    frame.Follows lost (if condition then p else q) (if condition then p' else q') c c' g := by
  split
  next holds => exact whenTrue holds
  next fails => exact whenFalse fails

theorem map {f f' : α → β} (follows : frame.Follows lost p p' c c' g)
    (same : ∀ value, f' (g value) = h (f value)) :
    frame.Follows lost (f <$> p) (f' <$> p') c c' h where
  before := follows.before
  after := follows.after.imp_left fun ⟨value, alike⟩ =>
    ⟨(congrArg f' value).trans (same _), alike⟩

theorem discard (follows : frame.Follows lost p p' c c' g) :
    frame.Follows lost (discard p) (discard p') c c' id :=
  ⟨follows.before, follows.after.imp_left fun ⟨_, alike⟩ => ⟨rfl, alike⟩⟩

/-- The second parser goes on from any cursor that is alike where the first one ends. -/
theorem bind_at (first : frame.Follows lost p p' c c' g)
    (rest : ∀ c₁', frame.Alike (p c).2 c₁' →
      frame.Follows lost' (next (p c).1) (next' (g (p c).1)) (p c).2 c₁' h)
    (lose : lost (p c).2 (p' c').2 →
      lost' (next (p c).1 (p c).2).2 (next' (p' c').1 (p' c').2).2) :
    frame.Follows lost' (p >>= next) (p' >>= next') c c' h where
  before := first.before.trans (rest _ (frame.alike_partner _)).before
  after := by
    rcases first.after with ⟨same, alike⟩ | apart
    · rw [run_bind, run_bind, same]
      exact (rest _ alike).after
    · exact .inr (lose apart)

/-- What is lost stays lost. -/
def Stable (lost : Cursor → Cursor → Prop) : Prop :=
  ∀ ⦃c c' end₁ end₂ : Cursor⦄, lost c c' → c.Before end₁ → c'.Before end₂ → lost end₁ end₂

/-- What happens outside is lost. -/
theorem inside (before : c.Before (p c).2) (outside : frame.Past c → lost (p c).2 (p' c').2)
    (within : frame.Inside c → frame.Follows lost p p' c c' g) :
    frame.Follows lost p p' c c' g := by
  by_cases inside : frame.Inside c
  · exact within inside
  · exact ⟨before, .inr (outside (past_of_not_inside inside))⟩

theorem bind (stable : Stable lost) (first : frame.Follows lost p p' c c' g)
    (rest : ∀ value c₁ c₁', c.Before c₁ → frame.Alike c₁ c₁' →
      frame.Follows lost (next value) (next' (g value)) c₁ c₁' h)
    (moves' : ∀ value, (next' value).Moves) :
    frame.Follows lost (p >>= next) (p' >>= next') c c' h :=
  first.bind_at (fun c₁' => rest _ _ c₁' first.before) fun apart =>
    stable apart (rest _ _ _ first.before (frame.alike_partner _)).before (moves' _ _)

section Repetition

/-- One turn of a repetition, and what is done if the step declines or goes on. -/
theorem turn {step step' : Parser (Option α)} {next next' : Option α → Parser β}
    (stable : Stable lost) (winds : step.Winds)
    (first : frame.Follows lost step step' c c' (Option.map g))
    (stops : ∀ c₁ c₁', c.Before c₁ → frame.Alike c₁ c₁' →
      frame.Follows lost (next none) (next' none) c₁ c₁' h)
    (goes : ∀ value c₁ c₁', c.Before c₁ → c₁.left < c.left → frame.Alike c₁ c₁' →
      frame.Follows lost (next (some value)) (next' (some (g value))) c₁ c₁' h)
    (moves' : ∀ value, (next' value).Moves) :
    frame.Follows lost (step >>= next) (step' >>= next') c c' h := by
  have rest (c₁' : Cursor) (alike : frame.Alike (step c).2 c₁') : frame.Follows lost
      (next (step c).1) (next' ((step c).1.map g)) (step c).2 c₁' h := by
    cases taken : (step c).1 with
    | none => exact stops _ _ first.before alike
    | some value =>
      exact goes value _ _ first.before ((winds.consumes c).left_lt taken) alike
  exact first.bind_at rest fun apart =>
    stable apart (rest _ (frame.alike_partner _)).before (moves' _ _)

theorem iterate {step step' : α → Parser (Option α)} (stable : Stable lost)
    (winds : ∀ value, (step value).Winds) (winds' : ∀ value, (step' value).Winds)
    (moves' : ∀ value, (step' value).Moves) (alike : frame.Alike c c')
    (steps : ∀ value c₁ c₁', c.Before c₁ → frame.Alike c₁ c₁' →
      frame.Follows lost (step value) (step' (g value)) c₁ c₁' (Option.map g)) (value : α) :
    frame.Follows lost (iterate step value) (iterate step' (g value)) c c' g := by
  -- The induction is on the tokens that the first run has left.
  induction bound : c.left using Nat.strongRecOn generalizing value c c' with
  | _ bound ih =>
    subst bound
    rw [iterate_eq winds, iterate_eq winds']
    refine turn stable (winds value) (steps value c c' (.refl c) alike)
      (fun c₁ c₁' _ alike₁ => .pure alike₁ rfl) (fun further c₁ c₁' before fewer alike₁ => ?_)
      fun further => ?_
    · exact ih _ fewer alike₁ (fun value c₂ c₂' later => steps value c₂ c₂' (before.trans later))
        further rfl
    · cases further with
      | none => exact .pure _
      | some further => exact iterate_moves moves' further

theorem collect {step step' : Parser (Option (List α))} (stable : Stable lost)
    (winds : step.Winds) (winds' : step'.Winds) (moves' : step'.Moves) (alike : frame.Alike c c')
    (steps : ∀ c₁ c₁', c.Before c₁ → frame.Alike c₁ c₁' →
      frame.Follows lost step step' c₁ c₁' (Option.map (List.map g))) :
    frame.Follows lost (collect step) (collect step') c c' (List.map g) := by
  induction bound : c.left using Nat.strongRecOn generalizing c c' with
  | _ bound ih =>
    subst bound
    rw [collect_eq winds, collect_eq winds']
    refine turn stable winds (steps c c' (.refl c) alike)
      (fun c₁ c₁' _ alike₁ => .pure alike₁ rfl) (fun values c₁ c₁' before fewer alike₁ => ?_)
      fun values => ?_
    · refine bind stable (ih _ fewer alike₁
        (fun c₂ c₂' later => steps c₂ c₂' (before.trans later)) rfl)
        (fun others c₂ c₂' _ alike₂ => .pure alike₂ List.map_append.symm) fun _ => .pure _
    · cases values with
      | none => exact .pure _
      | some values => exact (collect_moves moves').bind fun _ => .pure _

end Repetition

end Follows

open Source.Parser

variable {α β : Type} {p p' : Parser α} {g : α → α} {next next' : α → Parser β} {h : β → β}

/-! ### Runs that may part at the end -/

theorem past_stable : Follows.Stable fun end₁ _ => frame.Past end₁ :=
  fun _ _ _ _ past before _ => past.later before

namespace Agrees

theorem get {next next' : Cursor → Parser β} (rest : frame.Agrees (next c) (next' c') c c' h) :
    frame.Agrees (get >>= next) (get >>= next') c c' h := Follows.get rest

theorem inside (before : c.Before (p c).2) (within : frame.Inside c → frame.Agrees p p' c c' g) :
    frame.Agrees p p' c c' g :=
  Follows.inside before (fun past => past.later before) within

/-- Runs that see the same tokens to the end never part. -/
theorem settled (agrees : frame.Agrees p p' c c' g) (closed : frame.tail = []) :
    (p' c').1 = g (p c).1 ∧ frame.Alike (p c).2 (p' c').2 :=
  agrees.after.resolve_right fun past => past.1 closed

/-- The second parser goes on from any cursor that is alike where the first one ends. -/
theorem bind_at (first : frame.Agrees p p' c c' g)
    (rest : ∀ c₁', frame.Alike (p c).2 c₁' →
      frame.Agrees (next (p c).1) (next' (g (p c).1)) (p c).2 c₁' h) :
    frame.Agrees (p >>= next) (p' >>= next') c c' h :=
  Follows.bind_at first rest fun past => past.later (rest _ (frame.alike_partner _)).before

theorem bind (first : frame.Agrees p p' c c' g)
    (rest : ∀ value c₁ c₁', c.Before c₁ → frame.Alike c₁ c₁' →
      frame.Agrees (next value) (next' (g value)) c₁ c₁' h) :
    frame.Agrees (p >>= next) (p' >>= next') c c' h :=
  first.bind_at fun c₁' => rest _ _ c₁' first.before

/-- After a token that stands there. -/
theorem advance {next next' : Unit → Parser β} (alike : frame.Alike c c') (nonempty : c.rest ≠ [])
    (rest : c.next.left < c.left → frame.Alike c.next c'.next →
      frame.Agrees (next ()) (next' ()) c.next c'.next h) :
    frame.Agrees (advance >>= next) (advance >>= next') c c' h := by
  have follows := rest (advance_reads nonempty) (alike.next (.inr nonempty))
  exact ⟨c.before_next.trans follows.before, follows.after⟩

theorem iterate {step step' : α → Parser (Option α)} (winds : ∀ value, (step value).Winds)
    (winds' : ∀ value, (step' value).Winds) (moves' : ∀ value, (step' value).Moves)
    (alike : frame.Alike c c')
    (steps : ∀ value c₁ c₁', c.Before c₁ → frame.Alike c₁ c₁' →
      frame.Agrees (step value) (step' (g value)) c₁ c₁' (Option.map g)) (value : α) :
    frame.Agrees (iterate step value) (iterate step' (g value)) c c' g :=
  Follows.iterate past_stable winds winds' moves' alike steps value

theorem collect {step step' : Parser (Option (List α))} (winds : step.Winds)
    (winds' : step'.Winds) (moves' : step'.Moves) (alike : frame.Alike c c')
    (steps : ∀ c₁ c₁', c.Before c₁ → frame.Alike c₁ c₁' →
      frame.Agrees step step' c₁ c₁' (Option.map (List.map g))) :
    frame.Agrees (collect step) (collect step') c c' (List.map g) :=
  Follows.collect past_stable winds winds' moves' alike steps

end Agrees

/-! ### Runs that pass the end together -/

theorem outrun_stable :
    Follows.Stable fun end₁ end₂ => frame.Past end₁ ∧ end₂.rest <:+ frame.tail :=
  fun _ _ _ _ ⟨past, behind⟩ before before' => ⟨past.later before, before'.rest.trans behind⟩

namespace Outruns

theorem agrees (outruns : frame.Outruns p p' c c' g) : frame.Agrees p p' c c' g :=
  outruns.mono fun _ _ lost => lost.1

theorem inside (alike : frame.Alike c c') (before : c.Before (p c).2)
    (before' : c'.Before (p' c').2) (within : frame.Inside c → frame.Outruns p p' c c' g) :
    frame.Outruns p p' c c' g := by
  refine Follows.inside before (fun past => ⟨past.later before, ?_⟩) within
  have behind := before'.rest
  rwa [alike.rest, past.2] at behind

theorem bind (first : frame.Outruns p p' c c' g)
    (rest : ∀ value c₁ c₁', c.Before c₁ → frame.Alike c₁ c₁' →
      frame.Outruns (next value) (next' (g value)) c₁ c₁' h)
    (moves' : ∀ value, (next' value).Moves) :
    frame.Outruns (p >>= next) (p' >>= next') c c' h :=
  Follows.bind outrun_stable first rest moves'

theorem iterate {step : α → Parser (Option α)} (winds : ∀ value, (step value).Winds)
    (moves : ∀ value, (step value).Moves) (alike : frame.Alike c c')
    (steps : ∀ value c₁ c₁', c.Before c₁ → frame.Alike c₁ c₁' →
      frame.Outruns (step value) (step (g value)) c₁ c₁' (Option.map g)) (value : α) :
    frame.Outruns (iterate step value) (iterate step (g value)) c c' g :=
  Follows.iterate outrun_stable winds winds moves alike steps value

theorem collect {step : Parser (Option (List α))} (winds : step.Winds) (moves : step.Moves)
    (alike : frame.Alike c c')
    (steps : ∀ c₁ c₁', c.Before c₁ → frame.Alike c₁ c₁' →
      frame.Outruns step step c₁ c₁' (Option.map (List.map g))) :
    frame.Outruns (collect step) (collect step) c c' (List.map g) :=
  Follows.collect outrun_stable winds winds moves alike steps

end Outruns

/-! ### Runs that report where they part -/

theorem Past.noticed (noticed : frame.Past c ∧ c.errors ≠ []) (before : c.Before c') :
    frame.Past c' ∧ c'.errors ≠ [] :=
  ⟨noticed.1.later before, fun clean =>
    noticed.2 (List.prefix_nil.mp (clean ▸ before.errors))⟩

namespace Notices

theorem agrees (notices : frame.Notices p p' c c' g) : frame.Agrees p p' c c' g :=
  notices.mono fun _ _ lost => lost.1

theorem bind_at (first : frame.Notices p p' c c' g)
    (rest : ∀ c₁', frame.Alike (p c).2 c₁' →
      frame.Notices (next (p c).1) (next' (g (p c).1)) (p c).2 c₁' h) :
    frame.Notices (p >>= next) (p' >>= next') c c' h :=
  Follows.bind_at first rest fun noticed =>
    Past.noticed noticed (rest _ (frame.alike_partner _)).before

theorem bind (first : frame.Notices p p' c c' g)
    (rest : ∀ value c₁ c₁', c.Before c₁ → frame.Alike c₁ c₁' →
      frame.Notices (next value) (next' (g value)) c₁ c₁' h) :
    frame.Notices (p >>= next) (p' >>= next') c c' h :=
  first.bind_at fun c₁' => rest _ _ c₁' first.before

/-- A parser that may part from the other one, in front of what notices the end. -/
theorem after (first : frame.Agrees p p' c c' g)
    (rest : ∀ value c₁ c₁', c.Before c₁ → frame.Alike c₁ c₁' →
      frame.Notices (next value) (next' (g value)) c₁ c₁' h)
    (reports : ∀ value (c₁ : Cursor), frame.Past c₁ → (next value c₁).2.errors ≠ []) :
    frame.Notices (p >>= next) (p' >>= next') c c' h :=
  Follows.bind_at first (fun c₁' => rest _ _ c₁' first.before) fun past =>
    ⟨past.later (rest _ _ _ first.before (frame.alike_partner _)).before, reports _ _ past⟩

end Notices

end Frame
end MethodContracts.Source
