import MethodContracts.Proofs.Source.StatementProgress
import MethodContracts.Source.Declaration

/-!
# Declarations only move on

Reading a member, a type or a whole unit never goes back behind where it began. Where no type
is declared its reader stands where it began, but keeps the errors that it found.
-/
namespace MethodContracts.Source
namespace Parser

open Cursor

section Tracks

variable {R : Cursor → Cursor → Prop} [Tracks R]

/-- What is read of a parameter behind its type, or where no type stands. -/
theorem paramStep_eq_bind : ∃ rest : Option TypeRef → Parser (Option (List ParamDecl)),
    paramStep = (do
      let c ← get
      if c.atEnd || c.atKind .closeParen then return none
      else variableModifiers >>= fun _ => typeRef? >>= rest) ∧
    rest none = (do
      report .parameter
      advance
      skip .comma
      return some []) ∧
    ∀ type, (rest type).Along R := by
  refine ⟨_, rfl, rfl, fun type => ?_⟩
  cases type with
  | none =>
    apply Along.seq
    · exact report_moves .parameter
    apply Along.advance_bind
    exact (skip_moves .comma).bind_pure
  | some type =>
    have finish (type : TypeRef) : Along R (do
        let name ← expect .ident
        skip .comma
        return some [(⟨type, name.text, name.span, ⟨type.span.start, name.span.stop⟩⟩ :
          ParamDecl)]) := by
      apply Along.bind
      · exact expect_moves .ident
      intro name
      exact (skip_moves .comma).bind_pure
    apply Along.get_bind
    intro after
    apply Along.ite
    · apply Along.advance_bind
      exact (Along.pure _).bind finish
    · exact (Along.pure type).bind finish

theorem paramStep_moves : paramStep.Along R := by
  obtain ⟨rest, split, -, moves⟩ := paramStep_eq_bind (R := R)
  rw [split]
  apply Along.get_bind
  intro c
  apply Along.ite
  · exact .pure none
  apply Along.seq
  · exact variableModifiers_moves
  · exact typeRef?_moves.bind moves

theorem paramList_moves : paramList.Along R := by
  apply Along.seq
  · exact discard_moves (expect_moves .openParen)
  apply Along.bind
  · exact collect_moves paramStep_moves
  intro params
  exact (discard_moves (expect_moves .closeParen)).bind_pure

theorem throwsClause_moves : throwsClause.Along R := by
  apply Along.get_bind
  intro c
  apply Along.ite
  · apply Along.advance_bind
    exact skipWhile_moves _
  · exact .pure ()

theorem constantStep_moves (value : Unit) : (constantStep value).Along R := by
  apply Along.get_bind
  intro c
  apply Along.ite
  · exact advance_moves.bind_pure
  apply Along.ite
  · exact .pure none
  apply Along.seq
  · exact discard_moves modifiersAndAnnotations_moves
  apply Along.get_bind
  intro named
  apply Along.ite
  · apply Along.advance_bind
    apply Along.seq
    · exact skipGroup_moves .openParen .closeParen
    apply Along.seq
    · exact skipGroup_moves .openBrace .closeBrace
    apply Along.get_bind
    intro after
    apply Along.ite
    · exact advance_moves.bind_pure
    apply Along.ite
    · exact .pure none
    · exact advance_moves.bind_pure
  · exact .pure none

theorem enumConstants_moves : enumConstants.Along R := by
  apply Along.get_bind
  intro c
  apply Along.ite
  · exact advance_moves
  · exact iterate_moves constantStep_moves ()

theorem fieldStep_moves (value : Unit) : (fieldStep value).Along R := by
  apply Along.get_bind
  intro c
  apply Along.ite
  · exact .pure none
  apply Along.ite
  · exact (skipGroup_moves .openBrace .closeBrace).bind_pure
  · exact advance_moves.bind_pure

theorem fieldRest_moves (start : Nat) (type : TypeRef) (name : Token) :
    (fieldRest start type name).Along R := by
  apply Along.seq
  · exact iterate_moves fieldStep_moves ()
  exact (expect_moves .semicolon).bind_pure

theorem methodBody_moves : methodBody.Along R := by
  apply Along.get_bind
  intro c
  apply Along.ite
  · exact block_moves.map some
  · exact (discard_moves (expectAs_moves .semicolon .semicolonOrBody)).bind_pure

theorem defaultValue_moves : defaultValue.Along R := by
  apply Along.get_bind
  intro c
  apply Along.ite
  · exact skipWhile_moves _
  · exact .pure ()

theorem methodRest_moves (start : Nat) (notes : List Annotation) (type : TypeRef) (name : Token) :
    (methodRest start notes type name).Along R := by
  apply Along.bind
  · exact paramList_moves
  intro params
  apply Along.seq
  · exact throwsClause_moves
  apply Along.seq
  · exact defaultValue_moves
  apply Along.bind
  · exact methodBody_moves
  intro body
  exact Along.get.bind_pure

theorem constructorRest_moves (start : Nat) : (constructorRest start).Along R := by
  apply Along.bind
  · exact expect_moves .ident
  intro name
  apply Along.bind
  · exact paramList_moves
  intro params
  apply Along.seq
  · exact throwsClause_moves
  exact block_moves.bind_pure

theorem initializerRest_moves (start : Nat) (isStatic : Bool) :
    (initializerRest start isStatic).Along R := block_moves.bind_pure

theorem typeKind?_moves : typeKind?.Along R := by
  apply Along.get_bind
  intro c
  apply Along.ite
  · exact (advanceBy_moves 2).bind_pure
  split
  · exact .pure none
  · exact advance_moves.bind_pure

/-- Where no type begins, nothing is read of one. -/
private theorem typeKind?_undeclared {c : Cursor} :
    (typeKind? c).1 = none → (typeKind? c).2 = c := by
  rw [typeKind?, run_bind, run_get]
  split
  next => exact fun undeclared => absurd undeclared (Option.some_ne_none _)
  next =>
    cases c.rest.head?.bind fun token => typeKeyword? token.text with
    | none => exact fun _ => rfl
    | some kind => exact fun undeclared => absurd undeclared (Option.some_ne_none _)

theorem typedMember_moves (start : Nat) (notes : List Annotation) :
    (typedMember start notes).Along R := by
  apply Along.bind
  · exact typeRef?_moves
  intro type
  cases type with
  | none => exact .pure none
  | some type =>
    apply Along.bind
    · exact expect_moves .ident
    intro name
    apply Along.get_bind
    intro c
    apply Along.ite
    · exact (methodRest_moves start notes type name).map some
    · exact (fieldRest_moves start type name).map some

theorem plainMember_moves (start : Nat) (notes : List Annotation) (enclosing : String) :
    (plainMember start notes enclosing).Along R := by
  apply Along.get_bind
  intro c
  apply Along.ite
  · exact (constructorRest_moves start).map some
  · exact typedMember_moves start notes

theorem importStep_moves (value : Unit) : (importStep value).Along R := by
  apply Along.get_bind
  intro c
  apply Along.ite
  · apply Along.seq
    · exact skipWhile_moves _
    exact (discard_moves (expect_moves .semicolon)).bind_pure
  · exact .pure none

section Nesting

variable {nested : String → Parser (Option Member)} (moves : ∀ name, (nested name).Along R)
include moves

theorem memberStep_moves (typeName : String) : (memberStep nested typeName).Along R := by
  apply Along.get_bind
  intro c
  apply Along.ite
  · exact .pure none
  · apply Along.bind
    · exact moves typeName
    intro member
    apply Along.get_bind
    intro after
    apply Along.ite
    · exact advance_moves.bind_pure
    · exact .pure _

theorem typeBody_moves (typeName : String) (isEnum : Bool) :
    (typeBody nested typeName isEnum).Along R := by
  apply Along.seq
  · exact skipWhile_moves _
  apply Along.bind
  · exact expect_moves .openBrace
  intro opening
  have finish : Along R (do
      let members ← collect (memberStep nested typeName)
      let closing ← expect .closeBrace
      return (members, (⟨opening.span.start, closing.span.stop⟩ : Span))) := by
    apply Along.bind
    · exact collect_moves (memberStep_moves moves typeName)
    intro members
    exact (expect_moves .closeBrace).bind_pure
  apply Along.ite
  · exact enumConstants_moves.seq finish
  · exact finish

/-- A type that is read is read on from where it begins. -/
theorem typeDecl?_along {c : Cursor} (declared : (typeDecl? nested c).1 ≠ none) :
    R c (typeDecl? nested c).2 := by
  have before : R c (discard modifiersAndAnnotations c).2 :=
    discard_moves modifiersAndAnnotations_moves c
  have read := typeKind?_moves (R := R) (discard modifiersAndAnnotations c).2
  simp only [typeDecl?, run_bind, run_get] at declared ⊢
  cases known : (typeKind? (discard modifiersAndAnnotations c).2).1 with
  | none =>
    rw [known] at declared
    exact absurd rfl declared
  | some kind =>
    apply Tracks.trans (Tracks.trans before read)
    apply Along.bind
    · exact expect_moves .ident
    intro name
    apply Along.bind
    · exact typeBody_moves moves _ _
    rintro ⟨members, bodySpan⟩
    exact .pure _

omit moves [Tracks R] in
/-- Where no type is declared the reader goes back to where it began, but keeps the errors that
it found in what may stand in front of a type. -/
theorem typeDecl?_undeclared {c : Cursor} (undeclared : (typeDecl? nested c).1 = none) :
    (typeDecl? nested c).2 = { c with errors := (modifiersAndAnnotations c).2.errors } := by
  simp only [typeDecl?, run_bind, run_get] at undeclared ⊢
  cases known : (typeKind? (discard modifiersAndAnnotations c).2).1 with
  | none =>
    have stays := typeKind?_undeclared known
    exact congrArg (fun after : Cursor => { c with errors := after.errors }) stays
  | some kind =>
    rw [known] at undeclared
    exact absurd undeclared (Option.some_ne_none _)

omit moves in
/-- A member goes on as its parts do if a type does where one begins. -/
theorem memberOf_along (declares : ∀ c : Cursor,
      (c.atAnnotationType || (typeKeyword? c.word).isSome) = true → R c (typeDecl? nested c).2)
    (enclosing : String) : (memberOf nested enclosing).Along R := by
  apply Along.get_bind
  intro start
  apply Along.ite
  · exact .pure none
  apply Along.bind
  · exact modifiersAndAnnotations_moves
  intro notes
  apply Along.seq
  · exact skipGroup_moves .less .greater
  -- That a type goes on is known only where one begins, so the rest is followed from there.
  intro c
  rw [run_bind, run_get, run_ite, run_ite, run_ite]
  split
  · exact Along.advance_bind ((initializerRest_moves _ _).map some) c
  split
  · exact (initializerRest_moves _ _).map some c
  split
  next atType =>
    rw [run_bind]
    apply Tracks.trans (declares c atType)
    cases (typeDecl? nested c).1 with
    | none => exact plainMember_moves (R := R) _ _ _ _
    | some decl => exact Tracks.refl _
  next => exact plainMember_moves (R := R) _ _ _ _

end Nesting

end Tracks

section Nesting

variable {nested : String → Parser (Option Member)} (moves : ∀ name, (nested name).Moves)
include moves

theorem typeDecl?_moves : (typeDecl? nested).Moves := by
  intro c
  by_cases undeclared : (typeDecl? nested c).1 = none
  · rw [typeDecl?_undeclared undeclared]
    exact ⟨List.suffix_rfl, (modifiersAndAnnotations_moves c).errors⟩
  · exact typeDecl?_along moves undeclared

private theorem memberOf_moves (enclosing : String) : (memberOf nested enclosing).Moves :=
  memberOf_along (fun c _ => typeDecl?_moves moves c) enclosing

end Nesting

theorem memberWithin_moves (depth : Nat) (enclosing : String) :
    (memberWithin depth enclosing).Moves := by
  induction depth generalizing enclosing with
  | zero => exact .pure none
  | succ depth ih => exact memberOf_moves ih enclosing

theorem member?_moves (enclosing : String) : (member? enclosing).Moves := by
  apply Along.get_bind
  intro c
  exact memberWithin_moves _ enclosing

theorem unitStep_moves : unitStep.Moves := by
  apply Along.get_bind
  intro c
  apply Along.ite
  · exact .pure none
  apply Along.bind
  · exact typeDecl?_moves member?_moves
  intro decl
  cases decl with
  | none =>
    apply Along.seq
    · exact report_moves .typeDeclaration
    exact advance_moves.bind_pure
  | some decl => exact .pure _

theorem compilationUnit_moves : compilationUnit.Moves := by
  apply Along.get_bind
  intro c
  apply Along.seq
  · exact iterate_moves importStep_moves ()
  exact Along.bind_pure (collect_moves unitStep_moves)

end Parser
end MethodContracts.Source
