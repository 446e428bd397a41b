import MethodContracts.Proofs.Source.DeclarationRuns
import MethodContracts.Proofs.Source.Endings

/-!
# A method in front of a closing brace

A method that is read to the end of its tokens without errors is read alike as a member of a
class, in front of the brace that closes the class: nothing that was looked at lies behind its
last token, and the name of the class makes no constructor of it. The last token closes a body
or stands in its place.
-/
namespace MethodContracts.Source

open Source.Frame

variable {frame : Frame} {c c' : Cursor}

namespace Cursor

/-- A type declaration begins here. -/
def atType (c : Cursor) : Bool := c.atAnnotationType || (Parser.typeKeyword? c.word).isSome

/-- Neither a block nor a type begins here. -/
structure Plain (c : Cursor) : Prop where
  noStatic : ¬c.atStaticBlock = true
  noBlock : ¬c.atKind .openBrace = true
  noType : ¬c.atType = true

end Cursor

theorem Frame.Alike.plain (alike : frame.Alike c c') (plain : c.Plain) : c'.Plain := by
  have atType : c'.atType = c.atType := by
    rw [Cursor.atType, Cursor.atType, alike.atAnnotationType, alike.word]
  have atBlock : c'.atKind .openBrace = c.atKind .openBrace := alike.atKind (by decide)
  exact ⟨alike.atStaticBlock ▸ plain.noStatic, atBlock ▸ plain.noBlock, atType ▸ plain.noType⟩

namespace Parser

open Cursor Source.Frame

variable {α β : Type}

/-! ## The method -/

/-- The word that declares a type is a token. -/
theorem exists_of_keyword (keyword : (typeKeyword? c.word).isSome = true) :
    ∃ token rest, c.rest = token :: rest ∧ token.kind = .ident ∧ c.word = token.text := by
  unfold Cursor.word at keyword ⊢
  split at keyword
  next token rest found =>
    split at keyword
    next isWord => exact ⟨token, rest, found, isWord, if_pos isWord⟩
    next => cases keyword
  next => cases keyword

/-- Words that declare a type are no modifiers. -/
private theorem modifierStep_atType (atType : c.atType = true) : modifierStep c = (none, c) := by
  rw [Cursor.atType, Bool.or_eq_true] at atType
  rw [modifierStep, run_bind, run_get]
  rcases atType with annotation | keyword
  · have atSign : c.atKind .atSign = true := (Bool.and_eq_true_iff.mp annotation).1
    rw [if_pos atSign, if_pos annotation, run_pure]
  · obtain ⟨kind, isKind⟩ := Option.isSome_iff_exists.mp keyword
    have noModifier : c.atModifier = false := by
      -- None of the four keywords is among the modifiers.
      have listed : modifiers.contains c.word = false := by
        unfold typeKeyword? at isKind
        split_ifs at isKind with first second third fourth
        · rw [first]; decide
        · rw [second]; decide
        · rw [third]; decide
        · rw [fourth]; decide
      rw [Cursor.atModifier, listed, Bool.and_false]
    obtain ⟨token, rest, found, isWord, -⟩ := exists_of_keyword keyword
    have noSign : c.atKind .atSign = false := by simp [Cursor.atKind, Cursor.kind?, found, isWord]
    rw [noSign, if_neg Bool.false_ne_true, noModifier, if_neg Bool.false_ne_true, run_pure]

theorem modifiersAndAnnotations_atType (atType : c.atType = true) :
    modifiersAndAnnotations c = ([], c) := by
  rw [modifiersAndAnnotations, collect_eq modifierStep_winds, run_bind, modifierStep_atType atType]
  rfl

theorem modifiersAndAnnotations_declined (noSign : c.atKind .atSign = false)
    (noWord : c.atKind .ident = false) : modifiersAndAnnotations c = ([], c) := by
  have step : modifierStep c = (none, c) := by
    simp [modifierStep, run_bind, run_get, noSign, Cursor.atModifier, noWord, run_pure]
  rw [modifiersAndAnnotations, collect_eq modifierStep_winds, run_bind, step]
  rfl

theorem skipGroup_declined {opening : TokenKind} (closing : TokenKind)
    (absent : c.atKind opening = false) : skipGroup opening closing c = ((), c) := by
  rw [skipGroup, run_bind, run_get, if_neg (by simp [absent])]
  rfl

/-- Where a type begins one is read. -/
theorem typeDecl?_atType {nested : String → Parser (Option Member)} (atType : c.atType = true) :
    (typeDecl? nested c).1 ≠ none := by
  have known : (typeKind? c).1 ≠ none := by
    rw [typeKind?, run_bind, run_get]
    split
    next => exact Option.some_ne_none _
    next noAnnotation =>
      rw [Cursor.atType, Bool.or_eq_true] at atType
      have keyword := atType.resolve_left noAnnotation
      obtain ⟨token, rest, found, -, isText⟩ := exists_of_keyword keyword
      obtain ⟨kind, isKind⟩ := Option.isSome_iff_exists.mp keyword
      rw [found, List.head?_cons, Option.bind_some, ← isText, isKind]
      exact Option.some_ne_none kind
  obtain ⟨kind, isKind⟩ := Option.ne_none_iff_exists'.mp known
  -- No modifier is read in front of the keyword.
  have stays : ((discard modifiersAndAnnotations : Parser Unit) c).2 = c :=
    congrArg (·.2) (modifiersAndAnnotations_atType atType)
  rw [typeDecl?, run_bind, run_get, run_bind, stays, run_bind, isKind]
  exact Option.some_ne_none _

/-- Reads what stands in front of a member, and yields the annotations. -/
def memberHead : Parser (List Annotation) := do
  let notes ← modifiersAndAnnotations
  skipGroup .less .greater
  return notes

/-- Reads a member behind what stands in front of it. -/
def memberTail (nested : String → Parser (Option Member)) (start : Nat) (notes : List Annotation)
    (enclosing : String) : Parser (Option Member) := do
  let c ← get
  if c.atStaticBlock then
    advance
    some <$> initializerRest start true
  else if c.atKind .openBrace then some <$> initializerRest start false
  else if c.atType then
    match ← typeDecl? nested with
    | some decl => return some (.type decl.header decl.members)
    | none => plainMember start notes enclosing
  else plainMember start notes enclosing

theorem memberOf_eq (nested : String → Parser (Option Member)) (enclosing : String)
    (more : ¬c.atEnd = true) : memberOf nested enclosing c =
      memberTail nested c.here (memberHead c).1 enclosing (memberHead c).2 := by
  rw [memberOf, run_bind, run_get, if_neg more]
  rfl

section Tail

variable {nested : String → Parser (Option Member)} {start : Nat} {notes : List Annotation}
  {enclosing : String}

theorem memberTail_plain (plain : c.Plain) :
    memberTail nested start notes enclosing c = plainMember start notes enclosing c := by
  rw [memberTail, run_bind, run_get, if_neg plain.noStatic, if_neg plain.noBlock,
    if_neg plain.noType]

/-- A method is neither a block nor a type. -/
private theorem plain_of_method {decl : MethodDecl}
    (yields : (memberTail nested start notes enclosing c).1 = some (.method decl)) : c.Plain := by
  rw [memberTail, run_bind, run_get] at yields
  split_ifs at yields with atStatic atBlock atType
  · cases yields
  · cases yields
  · have declared : (typeDecl? nested c).1 ≠ none := typeDecl?_atType atType
    obtain ⟨decl, isDecl⟩ := Option.ne_none_iff_exists'.mp declared
    rw [run_bind, isDecl] at yields
    cases yields
  · exact ⟨atStatic, atBlock, atType⟩

end Tail

/-! ## A word in front of parentheses -/

theorem atKind_other {kind other : TokenKind} (atIt : c.atKind kind = true)
    (different : kind ≠ other) : c.atKind other = false := by
  rw [Cursor.atKind, beq_iff_eq] at atIt
  rw [Cursor.atKind, atIt]
  simp [different]

private theorem atKind_next {kind : TokenKind} (nonempty : c.rest ≠ [])
    (atIt : c.atNth 1 kind = true) : c.next.atKind kind = true := by
  obtain ⟨token, rest, found⟩ := List.exists_cons_of_ne_nil nonempty
  rw [Cursor.atNth, found, List.getElem?_cons_succ] at atIt
  rwa [Cursor.atKind, Frame.Alike.kind?_eq, c.rest_next found]

theorem iterate_declined {step : α → Parser (Option α)} (winds : ∀ value, (step value).Winds)
    {value : α} (declines : step value c = (none, c)) : iterate step value c = (value, c) := by
  rw [iterate_eq winds, run_bind, declines]
  rfl

/-- In front of a parenthesis a type is one word. -/
private theorem typeRef?_atParen (atWord : c.atKind .ident = true)
    (atParen : c.atNth 1 .openParen = true) : (typeRef? c).2 = c.next := by
  have nonempty := rest_ne_nil atWord
  have paren := atKind_next nonempty atParen
  obtain ⟨token, rest, found, isWord⟩ := exists_of_atKind atWord
  -- A parenthesis goes on with none of what a type may go on with.
  have noDot : c.next.atKind .dot = false := atKind_other paren (by decide)
  have noLess : c.next.atKind .less = false := atKind_other paren (by decide)
  have noBracket : c.next.atKind .openBracket = false := atKind_other paren (by decide)
  have dotted (name : NameText) : dottedStep name c.next = (none, c.next) := by
    rw [dottedStep, run_bind, run_get, if_neg (by simp [noDot]), run_pure]
  have bracketed (type : NameText) : bracketsStep type c.next = (none, c.next) := by
    rw [bracketsStep, run_bind, run_get, if_neg (by simp [noBracket]), run_pure]
  have name : (qualifiedName c).2 = c.next := by
    rw [qualifiedName, run_bind, expect_eq found isWord, run_bind,
      iterate_declined dottedStep_winds (dotted _)]
    rfl
  have generic : ¬c.next.atKind .less = true := by rw [noLess]; exact Bool.false_ne_true
  rw [typeRef?, run_bind, run_get, if_pos atWord, run_bind, name]
  generalize (qualifiedName _).1 = named
  obtain ⟨word, span⟩ := named
  dsimp only
  rw [run_bind, run_get, if_neg generic, run_bind, run_pure, run_bind,
    iterate_declined bracketsStep_winds (bracketed _)]
  rfl

/-- A word in front of a parenthesis is no type and name. -/
private theorem typedMember_atParen (start : Nat) (notes : List Annotation)
    (atWord : c.atKind .ident = true) (atParen : c.atNth 1 .openParen = true) :
    (typedMember start notes c).2.errors ≠ [] := by
  obtain ⟨type, isType⟩ := typeRef?_some atWord
  have paren := atKind_next (rest_ne_nil atWord) atParen
  -- The name is missing, as the parenthesis stands in its place.
  have reported : (expect .ident c.next).2.errors ≠ [] := by
    intro clean
    obtain ⟨token, rest, found, isWord, -⟩ := expectAs_clean clean
    rw [Cursor.atKind, Cursor.kind?, found, List.head?_cons, Option.map_some, isWord] at paren
    cases paren
  have moves (name : Token) : Moves (do
      if (← get).atKind .openParen then some <$> methodRest start notes type name
      else some <$> fieldRest start type name) :=
    Moves.get.bind fun _ => .ite ((methodRest_moves _ _ _ _).map _) ((fieldRest_moves _ _ _).map _)
  rw [typedMember, run_bind, isType, typeRef?_atParen atWord atParen]
  exact fun clean => reported (List.prefix_nil.mp (clean ▸ (moves _ _).errors))

/-! ## The member -/

private theorem memberHead_agrees (alike : frame.Alike c c') :
    frame.Agrees memberHead memberHead c c' (List.map (·.moved frame.move)) :=
  (modifiersAndAnnotations_agrees alike).bind fun _ _ _ _ alike₁ =>
    (skipGroup_agrees alike₁ .less .greater nofun).bind fun _ _ _ _ alike₂ => .pure alike₂ rfl

private theorem plainMember_noType (start : Nat) (notes : List Annotation) :
    plainMember start notes "" = typedMember start notes := by
  funext c
  rw [plainMember, run_bind, run_get, if_neg (fun named => named.1 rfl)]

/-- What a method was read as, if it stands alone. -/
private theorem typed_of_method {nested : String → Parser (Option Member)} {decl : MethodDecl}
    (yields : (memberOf nested "" c).1 = some (.method decl)) :
    ¬c.atEnd = true ∧ (memberHead c).2.Plain ∧ memberOf nested "" c =
      typedMember c.here (memberHead c).1 (memberHead c).2 := by
  have more : ¬c.atEnd = true := by
    intro atEnd
    rw [memberOf, run_bind, run_get, if_pos atEnd] at yields
    cases yields
  rw [memberOf_eq nested "" more] at yields ⊢
  have plain := plain_of_method yields
  rw [memberTail_plain plain, plainMember_noType]
  exact ⟨more, plain, rfl⟩

/-- A member of a class that stands in front of what is read there as a method or field. -/
private theorem memberOf_enclosed {nested nested' : String → Parser (Option Member)}
    {decl : MethodDecl}
    (alike : frame.Alike c c') (yields : (memberOf nested "" c).1 = some (.method decl))
    (clean : (memberOf nested "" c).2.errors = []) (enclosing : String) :
    (memberOf nested' enclosing c').1 = some (.method (decl.moved frame.move)) ∧
      frame.Alike (memberOf nested "" c).2 (memberOf nested' enclosing c').2 := by
  obtain ⟨more, plain, typed⟩ := typed_of_method yields
  have inside : frame.Inside c := .inr (rest_ne_nil_of_not_atEnd more)
  have more' : ¬c'.atEnd = true := by rwa [alike.atEnd inside]
  rw [typed] at yields clean ⊢
  rw [memberOf_eq nested' enclosing more', alike.here inside]
  -- At the end of the tokens there would be no method.
  have atWord : (memberHead c).2.atKind .ident = true := by
    by_contra noWord
    rw [typedMember, run_bind, typeRef?_eq_none noWord] at yields
    cases yields
  obtain ⟨notes, alike₂⟩ := (memberHead_agrees alike).after.resolve_right fun past => by
    rw [atKind_atEnd past.2] at atWord
    cases atWord
  rw [notes, memberTail_plain (alike₂.plain plain), plainMember, run_bind, run_get]
  rw [if_neg ?_]
  · have notices := typedMember_notices alike₂ c.here (memberHead c).1
    obtain ⟨same, alike₃⟩ := (Follows.after notices).resolve_right fun lost => lost.2 clean
    rw [same, yields]
    exact ⟨rfl, alike₃⟩
  · rintro ⟨-, -, atParen⟩
    rw [alike₂.atNth 1 (by decide)] at atParen
    exact typedMember_atParen _ _ atWord atParen clean

theorem member?_eq (enclosing : String) (c : Cursor) :
    member? enclosing c = memberOf (memberWithin c.left) enclosing c := rfl

/-- A method that is read without errors, with nothing behind it that was looked at, is read
alike as a member of any class. -/
theorem member?_enclosed {decl : MethodDecl} (alike : frame.Alike c c')
    (yields : (member? "" c).1 = some (.method decl)) (clean : (member? "" c).2.errors = [])
    (enclosing : String) :
    (member? enclosing c').1 = some (.method (decl.moved frame.move)) ∧
      frame.Alike (member? "" c).2 (member? enclosing c').2 := by
  rw [member?_eq "" c] at yields clean ⊢
  rw [member?_eq enclosing c']
  exact memberOf_enclosed alike yields clean enclosing

/-- The last token of a method closes its body or stands in its place. -/
theorem member?_ends {decl : MethodDecl} (yields : (member? "" c).1 = some (.method decl))
    (clean : (member? "" c).2.errors = []) : c.Closes (member? "" c).2 := by
  rw [member?_eq] at yields clean ⊢
  obtain ⟨-, -, typed⟩ := typed_of_method yields
  rw [typed] at yields clean ⊢
  have before : c.Before (memberHead c).2 :=
    (modifiersAndAnnotations_moves c).trans (skipGroup_moves _ _ _)
  have taken : (typedMember c.here (memberHead c).1 (memberHead c).2).1 ≠ none := by
    rw [yields]
    exact Option.some_ne_none _
  exact (typedMember_ends _ _ _ taken clean).earlier before

/-! ## One turn of reading members -/

section Turn

variable {nested : String → Parser (Option Member)} {name : String}

theorem memberStep_stops (stops : (c.atEnd || c.atKind .closeBrace) = true) :
    memberStep nested name c = (none, c) := by
  rw [memberStep, run_bind, run_get, if_pos stops, run_pure]

/-- Where reading a member goes on, nothing is given up. -/
theorem memberStep_reads (more : ¬(c.atEnd || c.atKind .closeBrace) = true)
    (fewer : ((nested name c).2.left == c.left) = false) :
    memberStep nested name c = (some (nested name c).1.toList, (nested name c).2) := by
  rw [memberStep, run_bind, run_get, if_neg more, run_bind, run_bind, run_get, fewer,
    if_neg Bool.false_ne_true]
  rfl

theorem memberStep_gives_up (more : ¬(c.atEnd || c.atKind .closeBrace) = true)
    (same : ((nested name c).2.left == c.left) = true) :
    memberStep nested name c = (some (nested name c).1.toList, (nested name c).2.next) := by
  rw [memberStep, run_bind, run_get, if_neg more, run_bind, run_bind, run_get, same, if_pos rfl]
  rfl

end Turn

end Parser
end MethodContracts.Source
