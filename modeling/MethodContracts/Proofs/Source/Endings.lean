import MethodContracts.Proofs.Source.DeclarationOutline
import MethodContracts.Proofs.Source.DeclarationProgress

/-!
# How a declaration ends

A declaration that is read without errors ends with a brace that closes it, or with a semicolon
in the place of its body. That token is the last one that was read, and the declaration ends
where it does.
-/
namespace MethodContracts.Source

variable {c c₀ c' : Cursor}

namespace Cursor

/-- The last token that was read from `c` to `c'` closes a body or stands in its place. -/
def Closes (c c' : Cursor) : Prop :=
  ∃ token : Token, (token.kind = .closeBrace ∨ token.kind = .semicolon) ∧
    token :: c'.rest <:+ c.rest ∧ c'.lastEnd = token.span.stop

theorem Closes.earlier (closes : c.Closes c') (before : c₀.Before c) : c₀.Closes c' := by
  obtain ⟨token, isKind, suffix, stop⟩ := closes
  exact ⟨token, isKind, suffix.trans before.rest, stop⟩

end Cursor

namespace Parser

open Cursor

variable {α β : Type}

/-- If it finds no error the parser ends with a closing brace or a semicolon. -/
def Ends (parser : Parser α) : Prop :=
  ∀ c, (parser c).2.errors = [] → c.Closes (parser c).2

/-- As `Ends`, if the parser yields something. -/
def EndsTaken (parser : Parser (Option α)) : Prop :=
  ∀ c, (parser c).1 ≠ none → (parser c).2.errors = [] → c.Closes (parser c).2

/-- Without an error the wanted token stands there and is read. -/
theorem expectAs_clean {kind : TokenKind} {wanted : Wanted}
    (clean : (expectAs kind wanted c).2.errors = []) :
    ∃ token rest, c.rest = token :: rest ∧ token.kind = kind ∧
      expectAs kind wanted c = (token, c.next) := by
  rcases expectAs_cases kind wanted c with read | missing
  · exact read
  · rw [missing] at clean
    exact absurd clean (c.errors_report wanted)

private theorem expectAs_ends {kind : TokenKind} (closes : kind = .closeBrace ∨ kind = .semicolon)
    (wanted : Wanted) : Ends (expectAs kind wanted) := by
  intro c clean
  obtain ⟨token, rest, found, isKind, read⟩ := expectAs_clean clean
  rw [read]
  have lastEnd : c.next.lastEnd = token.span.stop := by rw [Cursor.next, found]
  have taken : token :: c.next.rest = c.rest := by rw [c.rest_next found, found]
  exact ⟨token, isKind ▸ closes, ⟨[], taken⟩, lastEnd⟩

section Rules

variable {parser : Parser α} {next : α → Parser β} {first second : Parser (Option α)}

/-- What is read in front of the end does not matter. -/
theorem Ends.after (moves : parser.Moves) (rest : ∀ value, Ends (next value)) :
    Ends (parser >>= next) := by
  intro c clean
  have closes := rest (parser c).1 (parser c).2 clean
  exact closes.earlier (moves c)

/-- What reads nothing may follow. -/
theorem Ends.before (ends : Ends parser) (stays : ∀ value c, (next value c).2 = c) :
    Ends (parser >>= next) := by
  intro c clean
  have same : ((parser >>= next) c).2 = (parser c).2 := stays _ _
  rw [same] at clean ⊢
  exact ends c clean

theorem Ends.bind_pure {f : α → β} (ends : Ends parser) :
    Ends (parser >>= fun value => pure (f value)) := ends.before fun _ _ => rfl

theorem Ends.discard (ends : Ends parser) : Ends (discard parser) := ends

theorem Ends.map (ends : Ends parser) (f : α → β) : Ends (f <$> parser) := ends

theorem Ends.ite {condition : Prop} [Decidable condition] {first second : Parser α}
    (whenTrue : Ends first) (whenFalse : Ends second) :
    Ends (if condition then first else second) := by
  split
  · exact whenTrue
  · exact whenFalse

theorem Ends.taken (ends : Ends parser) : EndsTaken (some <$> parser) := fun c _ => ends c

theorem EndsTaken.none : EndsTaken (pure (none : Option α)) := fun _ taken => absurd rfl taken

theorem EndsTaken.get {next : Cursor → Parser (Option α)} (rest : ∀ c, EndsTaken (next c)) :
    EndsTaken (get >>= next) := fun c => rest c c

theorem EndsTaken.after {next : β → Parser (Option α)} {parser : Parser β} (moves : parser.Moves)
    (rest : ∀ value, EndsTaken (next value)) : EndsTaken (parser >>= next) := by
  intro c taken clean
  have closes := rest (parser c).1 (parser c).2 taken clean
  exact closes.earlier (moves c)

theorem EndsTaken.ite {condition : Prop} [Decidable condition] (whenTrue : EndsTaken first)
    (whenFalse : EndsTaken second) : EndsTaken (if condition then first else second) := by
  split
  · exact whenTrue
  · exact whenFalse

end Rules

/-! ## Bodies, methods and fields -/

private theorem block_ends : Ends block := by
  apply Ends.after (expect_moves .openBrace)
  intro opening
  apply Ends.after (collect_moves (blockStep_moves stmt?_moves))
  intro statements
  exact (expectAs_ends (.inl rfl) _).bind_pure

private theorem methodBody_ends : Ends methodBody := by
  apply Ends.after .get
  intro c
  apply Ends.ite
  · exact block_ends.map some
  · exact (expectAs_ends (.inr rfl) .semicolonOrBody).discard.bind_pure

private theorem methodRest_ends (start : Nat) (notes : List Annotation) (type : TypeRef)
    (name : Token) : Ends (methodRest start notes type name) := by
  apply Ends.after paramList_moves
  intro params
  apply Ends.after throwsClause_moves
  intro _
  apply Ends.after defaultValue_moves
  intro _
  apply Ends.before methodBody_ends
  intro body c
  rfl

private theorem fieldRest_ends (start : Nat) (type : TypeRef) (name : Token) :
    Ends (fieldRest start type name) := by
  apply Ends.after (iterate_moves fieldStep_moves ())
  intro _
  exact (expectAs_ends (.inr rfl) _).bind_pure

private theorem constructorRest_ends (start : Nat) : Ends (constructorRest start) := by
  apply Ends.after (expect_moves .ident)
  intro name
  apply Ends.after paramList_moves
  intro params
  apply Ends.after throwsClause_moves
  intro _
  exact block_ends.bind_pure

theorem initializerRest_ends (start : Nat) (isStatic : Bool) :
    Ends (initializerRest start isStatic) := block_ends.bind_pure

theorem typedMember_ends (start : Nat) (notes : List Annotation) :
    EndsTaken (typedMember start notes) := by
  apply EndsTaken.after typeRef?_moves
  intro type
  cases type with
  | none => exact .none
  | some type =>
    apply EndsTaken.after (expect_moves .ident)
    intro name
    apply EndsTaken.get
    intro c
    apply EndsTaken.ite
    · exact (methodRest_ends start notes type name).taken
    · exact (fieldRest_ends start type name).taken

theorem plainMember_ends (start : Nat) (notes : List Annotation) (enclosing : String) :
    EndsTaken (plainMember start notes enclosing) := by
  apply EndsTaken.get
  intro c
  apply EndsTaken.ite
  · exact (constructorRest_ends start).taken
  · exact typedMember_ends start notes

/-! ## Types and members -/

section Nesting

variable {nested : String → Parser (Option Member)} (moves : ∀ name, (nested name).Moves)
include moves

private theorem typeBody_ends (name : String) (isEnum : Bool) :
    Ends (typeBody nested name isEnum) := by
  apply Ends.after (skipWhile_moves _)
  intro _
  apply Ends.after (expect_moves .openBrace)
  intro opening
  have finish (_ : Unit) : Ends (do
      let members ← collect (memberStep nested name)
      let closing ← expect .closeBrace
      return (members, (⟨opening.span.start, closing.span.stop⟩ : Span))) := by
    apply Ends.after (collect_moves (memberStep_moves moves name))
    intro members
    exact (expectAs_ends (.inl rfl) _).bind_pure
  apply Ends.ite
  · exact .after enumConstants_moves finish
  · exact finish ()

theorem typeDecl?_ends : EndsTaken (typeDecl? nested) := by
  intro c taken clean
  have before := (discard_moves modifiersAndAnnotations_moves c).trans (typeKind?_moves _)
  have ends (kind : TypeKind) : Ends (do
      let name ← expect .ident
      let body ← typeBody nested name.text (kind == .enumType)
      return some (⟨⟨kind, name.text, ⟨c.here, body.2.stop⟩, body.2⟩, body.1⟩ : TypeDecl)) := by
    apply Ends.after (expect_moves .ident)
    intro name
    exact (typeBody_ends moves _ _).bind_pure
  simp only [typeDecl?, run_bind, run_get] at taken clean ⊢
  cases known : (typeKind? ((discard modifiersAndAnnotations : Parser Unit) c).2).1 with
  | none =>
    rw [known] at taken
    exact absurd rfl taken
  | some kind =>
    rw [known] at clean
    exact (ends kind _ clean).earlier before

end Nesting

end Parser
end MethodContracts.Source
