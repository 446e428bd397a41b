import MethodContracts.Proofs.Inference.Relocation
import MethodContracts.Proofs.Source.DeclarationRuns
import MethodContracts.Proofs.Source.Insertion

/-!
# Layout does not matter

Two texts with the same tokens are read alike, wherever their tokens stand: forget the places
on both sides and the same run is left. A longer gap between two tokens moves tokens and does
nothing else, and another offset moves them all by the same distance.
-/
namespace MethodContracts.Source

open Text Source.Parser

namespace Frame

/-- All places become one. -/
def erasing : Frame where
  move _ := 0
  keeps _ _ _ := Nat.le_refl 0
  tail := []
  closes := closes_nothing

/-- All places are moved by the same distance. -/
def shifting (distance : Nat) : Frame where
  move place := place + distance
  keeps _ _ before := Nat.add_le_add_right before distance
  tail := []
  closes := closes_nothing

end Frame

/-! ## Entry points -/

/-- What the reading of one method makes of the member that was read first. -/
def methodOf (textEnd : Nat) (member : Option Member) (c : Cursor) : Parsed (Option MethodDecl) :=
  match member with
  | some (.method decl) =>
    let trailing := ⟨.trailingInput, ⟨decl.span.stop, textEnd⟩⟩
    ⟨some decl, if c.atEnd then c.errors else c.errors ++ [trailing]⟩
  | other =>
    let span := (other.map Member.span).getD ⟨0, textEnd⟩
    ⟨none, c.errors ++ [⟨.expected .methodDeclaration, span⟩]⟩

theorem parseMethod_eq (text : String) :
    parseMethod text = methodOf (byteLength text.toList) (member? "" (.ofText text 0)).1
      (member? "" (.ofText text 0)).2 := rfl

section Closed

variable {frame : Frame} {c c' : Cursor} (closed : frame.tail = [])
include closed

/-- Parsers that agree to the end of the text yield the same, up to places. -/
theorem Frame.Follows.parsed {α : Type} {parser : Parser α} {moved : (Nat → Nat) → α → α}
    (agrees : frame.Agrees parser parser c c' (moved frame.move)) :
    (⟨(parser c').1, (parser c').2.errors⟩ : Parsed α) =
      Parsed.moved frame.move moved ⟨(parser c).1, (parser c).2.errors⟩ := by
  obtain ⟨value, alike⟩ := agrees.settled closed
  rw [value, alike.errors]
  rfl

private theorem methodOf_moved (alike : frame.Alike c c') (fixed : frame.move 0 = 0) (textEnd : Nat)
    (member : Option Member) :
    methodOf (frame.move textEnd) (member.map (Member.moved frame.move)) c' =
      (methodOf textEnd member c).moved frame.move fun move =>
        Option.map (MethodDecl.moved move) := by
  have ends := alike.atEnd (.inl closed)
  have errors := alike.errors
  rcases member with _ | (_ | decl | _ | _ | _)
  case some.method =>
    simp only [methodOf, Option.map_some, Member.moved, ends, errors, Parsed.moved]
    split
    · rfl
    · rw [List.map_append]
      rfl
  case none =>
    simp only [methodOf, Option.map_none, errors, Parsed.moved, List.map_append, Option.getD_none]
    simp only [List.map_cons, List.map_nil, SyntaxError.moved, Span.moved, fixed]
  all_goals
    simp only [methodOf, Option.map_some, Option.map_none, Member.moved, errors, Parsed.moved,
      List.map_append]
    rfl

end Closed

theorem Frame.alike_ofText {frame : Frame} {text text' : String} {offset offset' : Nat}
    (read : tokens text' offset' = (tokens text offset).map (Token.moved frame.move) ++ frame.tail)
    (ends : frame.tail = [] → offset' + byteLength text'.toList =
      frame.move (offset + byteLength text.toList)) :
    frame.Alike (.ofText text offset) (.ofText text' offset') where
  rest := read
  lastEnd place := by simp only [Cursor.ofText, Cursor.start, Nat.zero_max]
  textEnd := ends
  errors := rfl

/-! ## Another offset -/

/-- The same text at another offset. -/
private theorem alike_shifting (text : String) (offset distance : Nat) :
    (Frame.shifting distance).Alike (.ofText text offset) (.ofText text (offset + distance)) := by
  refine Frame.alike_ofText ?_ fun _ => Nat.add_right_comm ..
  have moved : Scans (offset + distance) text.toList
      ((tokens text offset).map (Token.moved (Frame.shifting distance).move)) :=
    (tokens_scans text offset).moved fun n => Nat.add_right_comm ..
  rw [moved.tokens_eq]
  exact (List.append_nil _).symm

theorem parseBlock_shift (text : String) (offset distance : Nat) :
    parseBlock text (offset + distance) =
      (parseBlock text offset).moved (· + distance) Block.moved :=
  (block_notices (alike_shifting text offset distance)).agrees.parsed rfl

theorem parseExpression_shift (text : String) (offset distance : Nat) :
    parseExpression text (offset + distance) =
      (parseExpression text offset).moved (· + distance) Expr.moved :=
  (expr_agrees (alike_shifting text offset distance)).parsed rfl

/-! ## Another layout -/

/-- The texts have the same tokens, wherever they stand. -/
def SameTokens (text text' : String) : Prop :=
  (tokens text' 0).map (Token.moved Frame.erasing.move) =
    (tokens text 0).map (Token.moved Frame.erasing.move)

namespace SameTokens

variable {text text' : String} (same : SameTokens text text')
include same

/-- Both texts are related to one run at no places. -/
theorem partner_eq :
    Frame.erasing.partner (.ofText text' 0) = Frame.erasing.partner (.ofText text 0) := by
  rw [Frame.partner, Frame.partner, Cursor.ofText, Cursor.ofText, Cursor.start, Cursor.start, same]
  rfl

theorem parse_eq : (parse text').moved (fun _ => 0) CompilationUnit.moved =
    (parse text).moved (fun _ => 0) CompilationUnit.moved := by
  have settled (source : String) := (compilationUnit_agrees rfl rfl
    (Frame.erasing.alike_partner (.ofText source 0))).parsed rfl
  rw [parse, parse, parseWith, parseWith]
  exact (settled text').symm.trans (same.partner_eq ▸ settled text)

theorem parseMethod_eq : (parseMethod text').moved (fun _ => 0)
      (fun move => Option.map (MethodDecl.moved move)) =
    (parseMethod text).moved (fun _ => 0) fun move => Option.map (MethodDecl.moved move) := by
  have settled (source : String) : methodOf 0
      (member? "" (Frame.erasing.partner (.ofText source 0))).1
      (member? "" (Frame.erasing.partner (.ofText source 0))).2 =
      (parseMethod source).moved (fun _ => 0) fun move => Option.map (MethodDecl.moved move) := by
    obtain ⟨member, alike⟩ := (member?_agrees rfl (Frame.erasing.alike_partner (.ofText source 0))
      "").settled rfl
    rw [member]
    exact methodOf_moved rfl alike rfl _ _
  exact (settled text').symm.trans (same.partner_eq ▸ settled text)

end SameTokens

theorem sameTokens_insert {front gap back : String} (between : StartsToken front back)
    (spacing : Spacing gap) : SameTokens (front ++ back) (front ++ gap ++ back) := by
  obtain ⟨before, behind, split, inserted⟩ := tokens_insert between spacing
  rw [SameTokens, split, inserted, List.map_append, List.map_append, List.map_map]
  rfl

/-- The texts are read alike once spans are forgotten, errors included, and the methods read
have the same contracts. -/
structure ReadAlike (text text' : String) : Prop where
  unit : (parse text').moved (fun _ => 0) CompilationUnit.moved =
    (parse text).moved (fun _ => 0) CompilationUnit.moved
  method : (parseMethod text').moved (fun _ => 0)
      (fun move => Option.map (MethodDecl.moved move)) =
    (parseMethod text).moved (fun _ => 0) fun move => Option.map (MethodDecl.moved move)
  unitContracts : List.Forall₂ Method.SameContracts (Method.ofUnit (parse text').value)
    (Method.ofUnit (parse text).value)
  methodContracts : ∀ owner, Option.Rel Method.SameContracts
    ((parseMethod text').value.map (Method.ofSource · owner))
    ((parseMethod text).value.map (Method.ofSource · owner))

theorem SameTokens.readAlike {text text' : String} (same : SameTokens text text') :
    ReadAlike text text' where
  unit := same.parse_eq
  method := same.parseMethod_eq
  unitContracts := Method.ofUnit_sameContracts _ (congrArg Parsed.value same.parse_eq)
  methodContracts owner := by
    have values := congrArg Parsed.value same.parseMethod_eq
    simp only [Parsed.moved] at values
    generalize (parseMethod text').value = decl', (parseMethod text).value = decl at values
    cases decl' with
    | none =>
      obtain rfl := Option.map_eq_none_iff.mp values.symm
      exact .none
    | some decl' =>
      obtain ⟨decl, rfl, erased⟩ := Option.map_eq_some_iff.mp values.symm
      exact .some (Method.sameContracts_of_moved_eq _ erased.symm owner)

/-- Layout does not matter: a gap put in front of a token that begins with white space changes
no more than the places in what is read, and so no contract; and at another offset what is read
stands elsewhere, by the difference of the offsets. -/
theorem parse_layout :
    (∀ front gap back : String, StartsToken front back → Spacing gap →
      ReadAlike (front ++ back) (front ++ gap ++ back)) ∧
    ∀ (text : String) (offset offset' : Nat),
      (parseBlock text offset').moved (· + offset) Block.moved =
        (parseBlock text offset).moved (· + offset') Block.moved ∧
      (parseExpression text offset').moved (· + offset) Expr.moved =
        (parseExpression text offset).moved (· + offset') Expr.moved := by
  refine ⟨fun front gap back between spacing => (sameTokens_insert between spacing).readAlike,
    fun text offset offset' => ⟨?_, ?_⟩⟩
  · rw [← parseBlock_shift, ← parseBlock_shift, Nat.add_comm]
  · rw [← parseExpression_shift, ← parseExpression_shift, Nat.add_comm]

theorem parse_layout_commented :
    StartsToken "class A " "{ int b(C c) { return c; } }" ∧ Spacing " /* d */\n" ∧
      ReadAlike "class A { int b(C c) { return c; } }"
        "class A  /* d */\n{ int b(C c) { return c; } }" := by
  have between : StartsToken "class A " "{ int b(C c) { return c; } }" := by
    have found : (tokens ("class A " ++ "{ int b(C c) { return c; } }") 0).any (fun token =>
        token.span.start == byteLength "class A ".toList) = true := by
      decide +kernel
    obtain ⟨token, member, start⟩ := List.any_eq_true.mp found
    exact ⟨token, member, beq_iff_eq.mp start⟩
  have spacing : Spacing " /* d */\n" := by
    have comment : GapPiece ('/' :: '*' :: [' ', 'd', ' '] ++ ['*', '/']) := .block (by decide)
    exact ⟨⟨' ', rfl, by decide⟩,
      .cons (.blank (by decide)) (.cons comment (.cons (.blank (by decide)) .nil))⟩
  exact ⟨between, spacing, parse_layout.1 _ _ _ between spacing⟩

end MethodContracts.Source
