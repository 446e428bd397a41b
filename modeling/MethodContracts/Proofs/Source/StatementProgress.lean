import MethodContracts.Proofs.Source.Progress
import MethodContracts.Source.Statement

/-!
# Annotations and statements only move on

Reading an annotation or a statement never goes back behind where it began. The one reader
that gives up what it has read, that of a local variable, then stands where it began.
-/
namespace MethodContracts.Source
namespace Parser

open Cursor

section Tracks

variable {R : Cursor → Cursor → Prop} [Tracks R]

theorem skip_moves (kind : TokenKind) : (skip kind).Along R := by
  intro c
  unfold skip
  split
  · exact Tracks.next c
  · exact Tracks.refl c

theorem skipStep_moves (go : Cursor → Bool) (value : Unit) : (skipStep go value).Along R := by
  apply Along.get_bind
  intro c
  apply Along.ite
  · exact .pure none
  · exact advance_moves.bind_pure

theorem skipWhile_moves (go : Cursor → Bool) : (skipWhile go).Along R :=
  iterate_moves (skipStep_moves go) ()

/-! ## Annotations and modifiers -/

theorem valueStep_moves (value : ValueText) : (valueStep value).Along R := by
  apply Along.get_bind
  intro c
  split
  · exact .pure none
  · apply Along.ite
    · exact .pure none
    · exact advance_moves.bind_pure

theorem annotationValue_moves : annotationValue.Along R := by
  apply Along.get_bind
  intro c
  apply Along.ite
  · exact (expect_moves .string).bind_pure
  · exact (iterate_moves valueStep_moves _).bind_pure

theorem argumentName_moves : argumentName.Along R := by
  apply Along.get_bind
  intro c
  apply Along.ite
  · apply Along.bind
    · exact expect_moves .ident
    intro name
    exact advance_moves.bind_pure
  · exact .pure none

theorem annotationArgument_moves : annotationArgument.Along R := by
  apply Along.get_bind
  intro before
  apply Along.bind
  · exact argumentName_moves
  intro name
  apply Along.bind
  · exact annotationValue_moves
  intro value
  exact Along.get.bind_pure

theorem annotationArgumentStep_moves : annotationArgumentStep.Along R := by
  apply Along.get_bind
  intro c
  apply Along.ite
  · exact .pure none
  · apply Along.bind
    · exact annotationArgument_moves
    intro argument
    exact (skip_moves .comma).bind_pure

/-- What is read of an annotation behind its sign. -/
theorem annotation_eq_bind : ∃ rest : Token → Parser Annotation,
    annotation = expect .atSign >>= rest ∧ ∀ sign, (rest sign).Along R := by
  refine ⟨_, rfl, fun sign => ?_⟩
  apply Along.bind
  · exact qualifiedName_moves
  rintro ⟨name, nameSpan⟩
  apply Along.get_bind
  intro c
  apply Along.ite
  · apply Along.advance_bind
    apply Along.bind
    · exact collect_moves annotationArgumentStep_moves
    intro arguments
    exact (expect_moves .closeParen).bind_pure
  · exact .pure _

theorem annotation_moves : annotation.Along R := by
  obtain ⟨rest, split, moves⟩ := annotation_eq_bind (R := R)
  rw [split]
  exact (expect_moves .atSign).bind moves

theorem modifierStep_moves : modifierStep.Along R := by
  apply Along.get_bind
  intro c
  apply Along.ite
  · apply Along.ite
    · exact .pure none
    · exact annotation_moves.bind_pure
  apply Along.ite
  · apply Along.ite
    · exact (advanceBy_moves 3).bind_pure
    apply Along.ite
    · exact .pure none
    · exact advance_moves.bind_pure
  · exact .pure none

theorem modifiersAndAnnotations_moves : modifiersAndAnnotations.Along R :=
  collect_moves modifierStep_moves

theorem variableModifierStep_moves (value : Unit) : (variableModifierStep value).Along R := by
  apply Along.get_bind
  intro c
  apply Along.ite
  · exact (discard_moves annotation_moves).bind_pure
  apply Along.ite
  · exact advance_moves.bind_pure
  · exact .pure none

theorem variableModifiers_moves : variableModifiers.Along R :=
  iterate_moves variableModifierStep_moves ()

/-! ## Statements -/

private theorem expr_moves : expr.Along R := by
  apply Along.get_bind
  intro c
  exact exprWithin_moves _ _

theorem parenthesized_moves : parenthesized.Along R := by
  apply Along.seq
  · exact discard_moves (expect_moves .openParen)
  apply Along.bind
  · exact expr_moves
  intro condition
  exact (discard_moves (expect_moves .closeParen)).bind_pure

theorem returnStmt_moves : returnStmt.Along R := by
  apply Along.get_bind
  intro before
  apply Along.advance_bind
  have finish (value : Option Expr) : Along R (do
      let closing ← expect .semicolon
      return Stmt.returns value ⟨before.here, closing.span.stop⟩) :=
    (expect_moves .semicolon).bind_pure
  apply Along.get_bind
  intro c
  apply Along.ite
  · exact (Along.pure none).bind finish
  · exact (expr_moves.map some).bind finish

theorem throwStmt_moves : throwStmt.Along R := by
  apply Along.get_bind
  intro before
  apply Along.advance_bind
  apply Along.bind
  · exact expr_moves
  intro value
  exact (expect_moves .semicolon).bind_pure

theorem assertStmt_moves : assertStmt.Along R := by
  apply Along.get_bind
  intro before
  apply Along.advance_bind
  apply Along.bind
  · exact expr_moves
  intro condition
  have finish (message : Option Expr) : Along R (do
      let closing ← expect .semicolon
      return Stmt.assert condition message ⟨before.here, closing.span.stop⟩) :=
    (expect_moves .semicolon).bind_pure
  apply Along.get_bind
  intro c
  apply Along.ite
  · apply Along.advance_bind
    exact (expr_moves.map some).bind finish
  · exact (Along.pure none).bind finish

theorem exprStmt_moves : exprStmt.Along R := by
  apply Along.get_bind
  intro before
  apply Along.bind
  · exact expr_moves
  intro value
  exact (expect_moves .semicolon).bind_pure

theorem localHead?_moves : localHead?.Along R := by
  apply Along.seq
  · exact variableModifiers_moves
  apply Along.bind
  · exact typeRef?_moves
  intro type
  cases type with
  | none => exact .pure none
  | some type =>
    apply Along.get_bind
    intro c
    apply Along.ite
    · apply Along.bind
      · exact expect_moves .ident
      intro name
      apply Along.get_bind
      intro after
      apply Along.ite
      · exact .pure _
      · exact .pure none
    · exact .pure none

theorem localStmt?_moves : localStmt?.Along R := by
  intro c
  have head : R c (localHead? c).2 := localHead?_moves c
  simp only [localStmt?, run_bind, run_get]
  cases (localHead? c).1 with
  | none => exact Tracks.refl c
  | some found =>
    -- The head was read ahead; the declaration goes on from where it ends.
    apply Tracks.trans head
    have finish (init : Option Expr) : Along R (do
        let closing ← expect .semicolon
        return some (Stmt.local found.1 found.2.text found.2.span init
          ⟨c.here, closing.span.stop⟩)) := (expect_moves .semicolon).bind_pure
    apply Along.get_bind
    intro after
    apply Along.ite
    · apply Along.advance_bind
      exact (expr_moves.map some).bind finish
    · exact (Along.pure none).bind finish

section Nesting

variable {nested : Parser (Option Stmt)} (moves : nested.Along R)
include moves

theorem blockStep_moves : (blockStep nested).Along R := by
  apply Along.get_bind
  intro c
  apply Along.ite
  · exact .pure none
  · apply Along.bind
    · exact moves
    intro statement
    apply Along.get_bind
    intro after
    apply Along.ite
    · exact advance_moves.bind_pure
    · exact .pure _

private theorem blockOf_moves : (blockOf nested).Along R := by
  apply Along.bind
  · exact expect_moves .openBrace
  intro opening
  apply Along.bind
  · exact collect_moves (blockStep_moves moves)
  intro statements
  exact (expect_moves .closeBrace).bind_pure

theorem governed_moves : (governed nested).Along R := by
  apply Along.get_bind
  intro before
  apply Along.bind
  · exact moves
  intro statement
  cases statement with
  | none => exact (report_moves .statement).bind_pure
  | some statement => exact .pure statement

theorem ifStmt_moves : (ifStmt nested).Along R := by
  apply Along.get_bind
  intro before
  apply Along.advance_bind
  apply Along.bind
  · exact parenthesized_moves
  intro condition
  apply Along.bind
  · exact governed_moves moves
  intro whenTrue
  apply Along.get_bind
  intro c
  apply Along.ite
  · apply Along.advance_bind
    apply Along.bind
    · exact governed_moves moves
    intro whenFalse
    exact Along.get.bind_pure
  · exact Along.get.bind_pure

theorem whileStmt_moves : (whileStmt nested).Along R := by
  apply Along.get_bind
  intro before
  apply Along.advance_bind
  apply Along.bind
  · exact parenthesized_moves
  intro condition
  apply Along.bind
  · exact governed_moves moves
  intro body
  exact Along.get.bind_pure

omit moves in
theorem catchStep_moves (value : Unit) : (catchStep value).Along R := by
  apply Along.get_bind
  intro c
  apply Along.ite
  · apply Along.advance_bind
    apply Along.seq
    · exact skipGroup_moves .openParen .closeParen
    exact (skipGroup_moves .openBrace .closeBrace).bind_pure
  · exact .pure none

theorem skipOutlined_moves (keyword : String) : (skipOutlined nested keyword).Along R := by
  have governs : Along R (discard (governed nested)) := discard_moves (governed_moves moves)
  have ends : Along R (discard (expect .semicolon)) := discard_moves (expect_moves .semicolon)
  have head : Along R (skipGroup .openParen .closeParen) := skipGroup_moves _ _
  have body : Along R (skipGroup .openBrace .closeBrace) := skipGroup_moves _ _
  -- The cases are the keywords, in the order in which they are tried.
  apply Along.ite
  · exact head.seq governs
  apply Along.ite
  · exact head.seq body
  apply Along.ite
  · apply governs.seq
    apply Along.get_bind
    intro c
    apply Along.ite
    · apply Along.advance_bind
      exact head.seq ends
    · exact ends
  apply Along.ite
  · apply head.seq
    apply body.seq
    apply Along.seq
    · exact iterate_moves catchStep_moves ()
    apply Along.get_bind
    intro c
    apply Along.ite
    · apply Along.advance_bind
      exact body
    · exact .pure ()
  · exact (skipWhile_moves _).seq ends

theorem outlinedStmt_moves (keyword : String) : (outlinedStmt nested keyword).Along R := by
  apply Along.get_bind
  intro before
  apply Along.advance_bind
  apply Along.seq
  · exact skipOutlined_moves moves keyword
  exact Along.get.bind_pure

theorem stmtOf_moves : (stmtOf nested).Along R := by
  apply Along.get_bind
  intro c
  apply Along.ite
  · exact .pure none
  apply Along.ite
  · exact advance_moves.bind_pure
  apply Along.ite
  · exact (blockOf_moves moves).bind_pure
  -- From here on the word decides.
  apply Along.ite
  · exact returnStmt_moves.map some
  apply Along.ite
  · exact throwStmt_moves.map some
  apply Along.ite
  · exact (ifStmt_moves moves).map some
  apply Along.ite
  · exact assertStmt_moves.map some
  apply Along.ite
  · exact (whileStmt_moves moves).map some
  apply Along.ite
  · exact (outlinedStmt_moves moves _).map some
  apply Along.bind
  · exact localStmt?_moves
  intro statement
  cases statement with
  | none => exact exprStmt_moves.map some
  | some statement => exact .pure _

end Nesting

theorem stmtWithin_moves (depth : Nat) : (stmtWithin depth).Along R := by
  induction depth with
  | zero => exact .pure none
  | succ depth ih => exact stmtOf_moves ih

theorem stmt?_moves : stmt?.Along R := by
  apply Along.get_bind
  intro c
  exact stmtWithin_moves _

theorem block_moves : block.Along R := blockOf_moves stmt?_moves

end Tracks

end Parser
end MethodContracts.Source
