import MethodContracts.Command.Report
import MethodContracts.Proofs.Method.Declarations
import MethodContracts.Proofs.Source.Parsing
import MethodContracts.Proofs.Text.Position

/-!
# Positions in reports

A check of source text reports errors of the parser and problems of annotations. The span of
either starts at a character boundary, so its position is that of its start, and never that of
the end of the text instead.
-/
namespace MethodContracts

open Text

namespace Method

/-- The problems of declared contracts stand where an annotation stands. -/
private theorem checkDeclared_span {method : Method} {diagnostic : Diagnostic} {span : Span}
    (reported : diagnostic ∈ method.checkDeclared) (placed : diagnostic.span = some span) :
    ∃ note ∈ method.annotations, note.span = span := by
  unfold checkDeclared at reported
  split at reported
  next => cases reported
  next note found =>
    have listed : note ∈ method.annotations := List.mem_of_find?_eq_some found
    refine ⟨note, listed, ?_⟩
    split at reported
    next => cases reported
    next text _ =>
      -- All problems of an annotation have its span, unless it is empty.
      have shown : diagnostic.span = if note.span.isEmpty then none else some note.span := by
        dsimp only at reported
        split at reported
        next =>
          rw [List.mem_singleton.mp reported]
          rfl
        next =>
          obtain ⟨contract, _, rfl⟩ := List.mem_map.mp reported
          rfl
      rw [placed] at shown
      split at shown
      next => cases shown
      next => exact (Option.some.inj shown).symm

/-- The annotations of a method of source text stand on the text. -/
private theorem annotations_onText {text : String} {method : Method}
    (found : method ∈ ofUnit (Source.parse text).value) :
    ∀ note ∈ method.annotations, note.span.OnText text 0 := by
  obtain ⟨decl, owner, has, rfl⟩ := hasMember_of_mem_ofUnit found
  intro note listed
  obtain ⟨written, isWritten, rfl⟩ := List.mem_map.mp listed
  have every := has.every
    ((Source.parse_read text).placed.trees _ (List.mem_singleton_self _))
  -- Lowering keeps the span of an annotation, which is a node of its declaration.
  have part : written.outline ∈ decl.outline.parts := by
    refine List.mem_append_left _ (List.mem_append_left _ ?_)
    exact List.mem_map_of_mem isWritten
  exact (every.of_mem part).self

end Method

/-- Every entry of a report is that of a diagnostic. -/
private theorem CheckReport.exists_of_mem {input : Input} {entry : CheckEntry}
    (listed : entry ∈ (ofInput input).entries) :
    ∃ method diagnostic, entry = .ofDiagnostic input.text method diagnostic := by
  rcases List.mem_append.mp listed with wrong | declared
  · obtain ⟨error, _, rfl⟩ := List.mem_map.mp wrong
    exact ⟨_, _, rfl⟩
  · obtain ⟨method, _, reported⟩ := List.mem_flatMap.mp declared
    obtain ⟨diagnostic, _, rfl⟩ := List.mem_map.mp reported
    exact ⟨_, _, rfl⟩

/-- Every span in a report on source text starts at a character boundary. -/
theorem CheckReport.span_boundary {text : String} {entry : CheckEntry} {span : Span}
    (listed : entry ∈ (ofInput (.ofSource text)).entries)
    (placed : entry.diagnostic.span = some span) : IsBoundary 0 text.toList span.start := by
  rcases List.mem_append.mp listed with wrong | declared
  · obtain ⟨error, found, rfl⟩ := List.mem_map.mp wrong
    cases placed
    exact ((Source.parse_read text).placed.errors error found).start
  · obtain ⟨method, found, reported⟩ := List.mem_flatMap.mp declared
    obtain ⟨diagnostic, isProblem, rfl⟩ := List.mem_map.mp reported
    obtain ⟨note, written, rfl⟩ := Method.checkDeclared_span isProblem placed
    exact (Method.annotations_onText found note written).start

/-- What a report on source text places it places where its span starts. -/
theorem CheckReport.position_of_span {text : String} {entry : CheckEntry} {span : Span}
    (listed : entry ∈ (ofInput (.ofSource text)).entries)
    (placed : entry.diagnostic.span = some span) :
    entry.position = some (lineColumn text span.start) := by
  obtain ⟨method, diagnostic, rfl⟩ := CheckReport.exists_of_mem listed
  have shown : diagnostic.span = some span := placed
  simp only [CheckEntry.ofDiagnostic, Input.ofSource, shown]
  rfl

/-- Without a text a report has no positions. -/
theorem CheckReport.position_of_no_text {input : Input} (noText : input.text = none)
    {entry : CheckEntry} (listed : entry ∈ (ofInput input).entries) : entry.position = none := by
  obtain ⟨method, diagnostic, rfl⟩ := exists_of_mem listed
  rw [noText]
  rfl

theorem Input.ofJsonText_text {path : Path} {text : String} {input : Input}
    (loaded : ofJsonText path text = .ok input) : input.text = none := by
  unfold ofJsonText at loaded
  repeat' split at loaded
  all_goals cases loaded
  rfl

/-- Positions count lines by line feeds and columns by characters, tell the places between
characters apart in their order, and stop at the end of the text. Whatever a report on source
text places has the position of a character boundary, found before the offset where it starts;
reports on JSON have no positions. -/
theorem CheckReport.positions_exact (text : String) :
    (∀ front back, text.toList = front ++ back →
      lineColumn text (byteLength front) =
        (front.count '\n' + 1, (lastLine front).length + 1)) ∧
    (∀ low high, IsBoundary 0 text.toList low → IsBoundary 0 text.toList high → low < high →
      Prod.Lex (· < ·) (· < ·) (lineColumn text low) (lineColumn text high)) ∧
    (∀ offset, byteLength text.toList ≤ offset →
      lineColumn text offset = lineColumn text (byteLength text.toList)) ∧
    (∀ entry ∈ (ofInput (.ofSource text)).entries, ∀ span,
      entry.diagnostic.span = some span →
        ∃ front back, text.toList = front ++ back ∧ span.start = byteLength front ∧
          before? (min span.start (byteLength text.toList)) text.toList = some front ∧
          entry.position = some (front.count '\n' + 1, (lastLine front).length + 1)) ∧
    ∀ path input, Input.ofJsonText path text = .ok input →
      ∀ entry ∈ (ofInput input).entries, entry.position = none := by
  have exact (front back : List Char) (whole : text.toList = front ++ back) :
      lineColumn text (byteLength front) =
        (front.count '\n' + 1, (lastLine front).length + 1) := by
    rw [lineColumn_front whole, positionAfter_eq]
  refine ⟨exact, fun low high first second => lineColumn_lt first second,
    fun offset => lineColumn_of_le, ?_, ?_⟩
  · intro entry listed span placed
    -- A span of a report starts at a boundary, so the text in front of it is whole characters.
    obtain ⟨front, back, whole, start⟩ := span_boundary listed placed
    rw [Nat.zero_add] at start
    refine ⟨front, back, whole, start, start ▸ before?_front whole, ?_⟩
    rw [position_of_span listed placed, start, exact front back whole]
  · intro path input loaded entry listed
    -- What is read from a file of methods has no text to count lines in.
    exact position_of_no_text (Input.ofJsonText_text loaded) listed

/-- A class without its closing brace, whose annotation stands behind letters of two bytes. -/
def CheckReport.twoByte : String := "class Ä \x7b\n /*é*/ @Contract(\"x\") int b(C c);"

/-- A method with the same annotation in JSON. -/
def CheckReport.annotated : String :=
  "\x7b\"name\":\"b\",\"annotations\":[\x7b\"name\":\"Contract\",\"value\":\"x\"," ++
    "\"range\":\x7b\"start\":3,\"end\":9\x7d\x7d]\x7d"

theorem CheckReport.positions_exact_twoByte :
    lineColumn twoByte 19 = (2, 8) ∧
      Prod.Lex (· < ·) (· < ·) (lineColumn twoByte 14) (lineColumn twoByte 19) ∧
      lineColumn twoByte 1000 = lineColumn twoByte 45 ∧
      (∃ entry ∈ (ofInput (.ofSource twoByte)).entries,
        entry.diagnostic.code = "CONTRACT_SYNTAX" ∧ entry.position = some (2, 8)) ∧
      ∃ input, Input.ofJsonText ⟨"a.json"⟩ annotated = .ok input ∧
        ∃ entry ∈ (ofInput input).entries,
          entry.diagnostic.code = "CONTRACT_SYNTAX" ∧ entry.position = none := by
  obtain ⟨exact, ordered, past, placed, _⟩ := positions_exact twoByte
  have boundary (count offset : Nat) (bytes : byteLength (twoByte.toList.take count) = offset) :
      IsBoundary 0 twoByte.toList offset :=
    ⟨_, _, (List.take_append_drop count _).symm, by rw [bytes, Nat.zero_add]⟩
  have nineteen : byteLength (twoByte.toList.take 17) = 19 := by decide +kernel
  have atNote := exact _ _ (List.take_append_drop 17 twoByte.toList).symm
  rw [nineteen] at atNote
  have counted : ((twoByte.toList.take 17).count '\n' + 1,
      (lastLine (twoByte.toList.take 17)).length + 1) = (2, 8) := by decide +kernel
  have all : byteLength twoByte.toList = 45 := by decide +kernel
  have reported : ∃ entry ∈ (ofInput (.ofSource twoByte)).entries,
      entry.diagnostic.code = "CONTRACT_SYNTAX" ∧ entry.diagnostic.span = some ⟨19, 33⟩ := by
    decide +kernel
  refine ⟨atNote.trans counted, ?_, ?_, ?_, ?_⟩
  · exact ordered 14 19 (boundary 13 14 (by decide +kernel)) (boundary 17 19 nineteen) (by decide)
  · rw [past 1000 (by rw [all]; decide), all]
  · obtain ⟨entry, listed, isContract, span⟩ := reported
    obtain ⟨front, back, whole, start, _, position⟩ := placed entry listed ⟨19, 33⟩ span
    refine ⟨entry, listed, isContract, ?_⟩
    rw [position, ← exact front back whole, ← start, atNote, counted]
  · have loaded : (Input.ofJsonText ⟨"a.json"⟩ annotated).toOption.any (fun input =>
        (ofInput input).entries.any (·.diagnostic.code == "CONTRACT_SYNTAX")) = true := by
      decide +kernel
    cases read : Input.ofJsonText ⟨"a.json"⟩ annotated with
    | error error =>
      rw [read] at loaded
      cases loaded
    | ok input =>
      rw [read] at loaded
      obtain ⟨entry, listed, isContract⟩ := List.any_eq_true.mp loaded
      have nowhere := (positions_exact annotated).2.2.2.2 ⟨"a.json"⟩ input read entry listed
      exact ⟨input, rfl, entry, listed, eq_of_beq isContract, nowhere⟩

end MethodContracts
