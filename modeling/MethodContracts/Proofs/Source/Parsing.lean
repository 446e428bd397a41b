import MethodContracts.Proofs.Source.DeclarationOutline
import MethodContracts.Proofs.Source.Tiling
import MethodContracts.Source.Parse

/-!
# Spans of parsed texts

The tokens of a text put the cursor at its start into a sound state, and the parsers keep it
there. So every span of every tree has its place in the text, whatever errors were found, and
without errors the spans nest and follow each other as the parts of the tree do.
-/
namespace MethodContracts

open Text

/-- The span marks a piece of the text, which starts at `offset`. -/
structure Span.OnText (text : String) (offset : Nat) (span : Span) : Prop where
  ordered : span.start ≤ span.stop
  from_start : offset ≤ span.start
  to_stop : span.stop ≤ offset + byteLength text.toList
  start : IsBoundary offset text.toList span.start
  stop : IsBoundary offset text.toList span.stop

theorem Span.Valid.onText {text : String} {offset : Nat} {span : Span}
    (valid : span.Valid (IsBoundary offset text.toList)) : span.OnText text offset :=
  ⟨valid.ordered, valid.start.within.1, valid.stop.within.2, valid.start, valid.stop⟩

namespace Source

variable {text : String} {offset : Nat} {α : Type}

/-! ## The start of a text -/

private theorem ranged_of_ordered {boundary : Nat → Prop} {tokens : List Token} {low high : Nat}
    (le : low ≤ high) (ordered : tokens.Pairwise fun first second =>
      first.span.stop ≤ second.span.start)
    (each : ∀ token ∈ tokens, low ≤ token.span.start ∧ token.span.stop ≤ high ∧
      token.span.Valid boundary ∧ token.text ≠ "") : Ranged boundary low tokens high := by
  induction tokens generalizing low with
  | nil => exact le
  | cons token rest ih =>
    obtain ⟨behind, others⟩ := List.pairwise_cons.mp ordered
    obtain ⟨start, stop, valid, nonempty⟩ := each token List.mem_cons_self
    refine ⟨start, valid, nonempty, ih stop others fun next member => ?_⟩
    exact ⟨behind next member, (each next (List.mem_cons_of_mem _ member)).2⟩

theorem ofText_sound (text : String) (offset : Nat) :
    (Cursor.ofText text offset).Sound (IsBoundary offset text.toList) where
  tokens := by
    have tiles := tokens_tiles text offset
    refine ranged_of_ordered (Nat.zero_le _) tiles.ordered fun token member => ?_
    obtain ⟨start, stop⟩ := (tiles.slice member).boundaries
    have ordered := Nat.le_of_lt (tiles.start_lt_stop member)
    exact ⟨Nat.zero_le _, stop.within.2, ⟨ordered, start, stop⟩, tiles.text_ne_empty member⟩
  textEnd := isBoundary_stop offset text.toList
  lastEnd := .inl rfl
  errors := List.forall_mem_nil _

/-! ## The entry points -/

/-- Every span of the trees and of the errors has its place in the text. -/
structure Parsed.Placed (text : String) (offset : Nat) (outlines : α → List Outline)
    (parsed : Parsed α) : Prop where
  trees : ∀ tree ∈ outlines parsed.value, tree.Every fun node => node.span.OnText text offset
  errors : ∀ error ∈ parsed.errors, error.span.OnText text offset

/-- What is true of whatever was parsed. -/
structure Parsed.Read (text : String) (offset : Nat) (outlines : α → List Outline)
    (parsed : Parsed α) : Prop where
  placed : parsed.Placed text offset outlines
  clean : parsed.errors = [] →
    ∀ tree ∈ outlines parsed.value, tree.Every fun node => node.Nested ∧ node.Filled

theorem Parsed.Read.nested {outlines : α → List Outline} {parsed : Parsed α}
    (read : parsed.Read text offset outlines) (clean : parsed.errors = []) :
    ∀ tree ∈ outlines parsed.value, tree.Every Outline.Nested :=
  fun tree member => (read.clean clean tree member).mono fun _ holds => holds.1

theorem Parsed.Read.filled {outlines : α → List Outline} {parsed : Parsed α}
    (read : parsed.Read text offset outlines) (clean : parsed.errors = []) :
    ∀ tree ∈ outlines parsed.value, tree.Every Outline.Filled :=
  fun tree member => (read.clean clean tree member).mono fun _ holds => holds.2

private theorem parseWith_read {parser : Parser α} {outlines : α → List Outline}
    (leads : Parser.Leads (IsBoundary offset text.toList) parser (.ofText text offset)
      fun value c' => (∀ tree ∈ outlines value, tree.Every fun node =>
          node.span.Valid (IsBoundary offset text.toList)) ∧
        (c'.errors = [] → ∀ tree ∈ outlines value, tree.Every fun node =>
          node.Nested ∧ node.Filled)) :
    (parseWith parser text offset).Read text offset outlines where
  placed.trees tree member := (leads.post.1 tree member).mono fun _ => Span.Valid.onText
  placed.errors error member := (leads.step.sound.errors error member).onText
  clean := leads.post.2

theorem parse_read (text : String) :
    (parse text).Read text 0 fun unit => [unit.outline] :=
  parseWith_read <| (Parser.compilationUnit_leads (ofText_sound text 0)
    (isBoundary_start 0 text.toList)).mono fun _ _ _ ⟨valid, clean⟩ =>
      ⟨List.forall_mem_singleton.mpr valid, fun none => List.forall_mem_singleton.mpr (clean none)⟩

theorem parseBlock_read (text : String) (offset : Nat) :
    (parseBlock text offset).Read text offset fun block => [block.outline] :=
  parseWith_read <| (Parser.block_leads (ofText_sound text offset)).mono fun _ _ _ spans =>
    ⟨spans.fits.valid, fun none tree member => (spans.fits.clean none tree member).2⟩

theorem parseExpression_read (text : String) (offset : Nat) :
    (parseExpression text offset).Read text offset fun expr => [expr.outline] :=
  parseWith_read <| (Parser.expr_leads (ofText_sound text offset)).mono fun _ _ _ spans =>
    ⟨spans.fits.valid, fun none tree member => (spans.fits.clean none tree member).2⟩

theorem parseMethod_read (text : String) :
    (parseMethod text).Read text 0 fun decl => decl.toList.map MethodDecl.outline := by
  obtain ⟨step, fits⟩ := Parser.member?_fits _ "" _ (ofText_sound text 0) (Nat.lt_succ_self _)
  unfold parseMethod
  generalize Parser.member? "" (.ofText text 0) = run at step fits
  obtain ⟨member, c'⟩ := run
  dsimp only at step fits ⊢
  have found : ∀ error ∈ c'.errors, error.span.OnText text 0 := fun error member =>
    (step.sound.errors error member).onText
  have textEnd : IsBoundary 0 text.toList (byteLength text.toList) := by
    simpa using isBoundary_stop 0 text.toList
  split
  next decl =>
    have valid : decl.span.Valid (IsBoundary 0 text.toList) :=
      (fits.valid _ (List.mem_singleton_self _)).self
    have trailing : (⟨decl.span.stop, byteLength text.toList⟩ : Span).OnText text 0 :=
      Span.Valid.onText ⟨by simpa using valid.stop.within.2, valid.stop, textEnd⟩
    refine ⟨⟨fun tree one => (fits.valid tree one).mono fun _ => Span.Valid.onText, ?_⟩, ?_⟩
    · split
      · exact found
      · exact List.forall_mem_append.mpr ⟨found, List.forall_mem_singleton.mpr trailing⟩
    · intro clean tree one
      have none : c'.errors = [] := by
        split at clean
        · exact clean
        · exact (List.append_eq_nil_iff.mp clean).1
      exact (fits.clean none tree one).2
  next =>
    -- What was read instead of a method is not yielded, and there is an error.
    refine ⟨⟨List.forall_mem_nil _, ?_⟩, fun _ => List.forall_mem_nil _⟩
    refine List.forall_mem_append.mpr ⟨found, List.forall_mem_singleton.mpr ?_⟩
    cases member with
    | none =>
      exact Span.Valid.onText ⟨Nat.zero_le _, isBoundary_start 0 text.toList, textEnd⟩
    | some member =>
      have valid := (fits.valid _ (List.mem_singleton_self member.outline)).self
      rw [member.span_outline] at valid
      exact valid.onText

/-! ## Spans -/

/-- Every span that a parser yields, in a tree or in an error, has its place in the text. -/
theorem parse_spans_onText (text : String) :
    (parse text).Placed text 0 (fun unit => [unit.outline]) ∧
      (parseMethod text).Placed text 0 (fun decl => decl.toList.map MethodDecl.outline) ∧
      ∀ offset,
        (parseBlock text offset).Placed text offset (fun block => [block.outline]) ∧
        (parseExpression text offset).Placed text offset (fun expr => [expr.outline]) :=
  ⟨(parse_read text).placed, (parseMethod_read text).placed, fun offset =>
    ⟨(parseBlock_read text offset).placed, (parseExpression_read text offset).placed⟩⟩

/-- A method that is read without errors is yielded. -/
theorem exists_of_parseMethod (clean : (parseMethod text).errors = []) :
    ∃ decl, (parseMethod text).value = some decl := by
  unfold parseMethod at clean ⊢
  generalize Parser.member? "" (.ofText text 0) = run at clean
  obtain ⟨member, c'⟩ := run
  dsimp only at clean ⊢
  split at clean
  next decl => exact ⟨decl, rfl⟩
  next => simp at clean

/-- What is read without errors has its parts inside it, one behind the other as they are
listed, down to names and types. -/
theorem parse_clean_nested (text : String) :
    ((parse text).errors = [] → (parse text).value.outline.Every Outline.Nested) ∧
      ((parseMethod text).errors = [] →
        ∃ decl ∈ (parseMethod text).value, decl.outline.Every Outline.Nested) ∧
      ∀ offset,
        ((parseBlock text offset).errors = [] →
          (parseBlock text offset).value.outline.Every Outline.Nested) ∧
        ((parseExpression text offset).errors = [] →
          (parseExpression text offset).value.outline.Every Outline.Nested) := by
  refine ⟨fun clean => ?_, fun clean => ?_, fun offset => ⟨fun clean => ?_, fun clean => ?_⟩⟩
  · exact (parse_read text).nested clean _ (List.mem_singleton_self _)
  · obtain ⟨decl, yielded⟩ := exists_of_parseMethod clean
    refine ⟨decl, yielded, (parseMethod_read text).nested clean _ ?_⟩
    rw [yielded]
    exact List.mem_singleton_self _
  · exact (parseBlock_read text offset).nested clean _ (List.mem_singleton_self _)
  · exact (parseExpression_read text offset).nested clean _ (List.mem_singleton_self _)

theorem parse_clean_nested_guarded :
    (parse "class A { @B(c) int d(E e) { return (F) e; } }").value.outline.Every Outline.Nested ∧
      (∃ decl ∈ (parseMethod "@B(c) int d(E e) { return (F) e; }").value,
        decl.outline.Every Outline.Nested) ∧
      (parseBlock "{ int a = b; if (a < c) throw d; else e.f(a); }" 7).value.outline.Every
        Outline.Nested ∧
      (parseExpression "a.b(c)[d] ? -e : f -> g" 7).value.outline.Every Outline.Nested :=
  ⟨(parse_clean_nested _).1 (by decide +kernel), (parse_clean_nested _).2.1 (by decide +kernel),
    ((parse_clean_nested _).2.2 7).1 (by decide +kernel),
    ((parse_clean_nested _).2.2 7).2 (by decide +kernel)⟩

end Source
end MethodContracts
