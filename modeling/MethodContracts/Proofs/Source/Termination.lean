import MethodContracts.Proofs.Source.DeclarationRuns

/-!
# The parser ends, and reads to the end

The depth that bounds the readers of nested expressions, statements and members is never what
ends them. A layer of such a reader asks for what is nested only where fewer tokens are left,
so there is one reader without a depth that satisfies the recursion, and every depth that
exceeds the number of tokens left reads what it reads. Repetitions end as their steps read
tokens, no reader goes back, and a unit is read to its last token.
-/
namespace MethodContracts.Source

open Source.Frame

/-- Runs over the same tokens at the same places. -/
def Frame.same : Frame := ⟨id, monotone_id, [], Frame.closes_nothing⟩

section Same

variable {c c' : Cursor} {ι α : Type}

theorem Frame.alike_same (c : Cursor) : Frame.same.Alike c c where
  rest := by
    rw [show Token.moved same.move = id from rfl, List.map_id]
    exact (List.append_nil _).symm
  lastEnd _ := rfl
  textEnd _ := rfl
  errors := by rw [show SyntaxError.moved same.move = id from rfl, List.map_id]

theorem Frame.eq_of_alike_same (alike : Frame.same.Alike c c') : c' = c := by
  have rest := alike.rest
  have lastEnd := alike.lastEnd 0
  have textEnd := alike.textEnd rfl
  have errors := alike.errors
  rw [show Token.moved same.move = id from rfl, List.map_id] at rest
  rw [show SyntaxError.moved same.move = id from rfl, List.map_id] at errors
  cases c
  cases c'
  simp_all [same]

theorem Frame.Agrees.eq_of_same {p p' : Parser α} (agrees : Frame.same.Agrees p p' c c id) :
    p' c = p c := by
  obtain ⟨same, alike⟩ := agrees.settled rfl
  exact Prod.ext same (eq_of_alike_same alike)

theorem Frame.agreeing_same {nested nested' : ι → Parser α} {bound : Nat}
    (moves : ∀ index, (nested index).Moves) (moves' : ∀ index, (nested' index).Moves)
    (same : ∀ index (c : Cursor), c.left < bound → nested index c = nested' index c) :
    Agreeing Frame.same bound id nested nested' where
  moves := moves
  moves' := moves'
  agrees index c c' alike room := by
    obtain rfl := eq_of_alike_same alike
    refine ⟨moves index c', .inl ?_⟩
    rw [same index c' room]
    exact ⟨rfl, alike_same _⟩

end Same

/-! ## Recursion without a depth -/

section Recursion

variable {ι α : Type}

/-- The readers of every depth, each a layer over the one before, come to `reader`. -/
structure Terminates (layer : (ι → Parser α) → ι → Parser α) (within : Nat → ι → Parser α)
    (reader : ι → Parser α) : Prop where
  /-- A layer asks for what is nested only where fewer tokens are left than where it began. -/
  guarded : ∀ nested nested' (c : Cursor), (∀ index, (nested index).Moves) →
    (∀ index, (nested' index).Moves) →
    (∀ index (c' : Cursor), c'.left < c.left → nested index c' = nested' index c') →
    ∀ index, layer nested index c = layer nested' index c
  /-- The reader satisfies the recursion. -/
  unfolds : layer reader = reader
  /-- No other reader does. -/
  unique : ∀ other, (∀ index, (other index).Moves) → layer other = other → other = reader
  /-- A depth that exceeds the number of tokens left does not matter. -/
  deep : ∀ depth index (c : Cursor), c.left < depth → within depth index c = reader index c

private theorem terminates_of_guarded {layer : (ι → Parser α) → ι → Parser α}
    {within : Nat → ι → Parser α} {reader : ι → Parser α}
    (guarded : ∀ nested nested' (c : Cursor), (∀ index, (nested index).Moves) →
      (∀ index, (nested' index).Moves) →
      (∀ index (c' : Cursor), c'.left < c.left → nested index c' = nested' index c') →
      ∀ index, layer nested index c = layer nested' index c)
    (deeper : ∀ depth index, within (depth + 1) index = layer (within depth) index)
    (moves : ∀ depth index, (within depth index).Moves)
    (reads : ∀ index (c : Cursor), reader index c = within (c.left + 1) index c) :
    Terminates layer within reader := by
  have readerMoves (index : ι) : (reader index).Moves := fun c =>
    reads index c ▸ moves (c.left + 1) index c
  -- Two depths are as good as each other where fewer tokens are left, since what is nested is
  -- read from fewer still.
  have enough (depth depth' : Nat) (index : ι) (c : Cursor) (room : c.left < depth)
      (room' : c.left < depth') : within depth index c = within depth' index c := by
    induction depth generalizing depth' index c with
    | zero => exact absurd room (Nat.not_lt_zero _)
    | succ depth ih =>
      obtain ⟨depth', rfl⟩ : ∃ less, depth' = less + 1 := ⟨depth' - 1, by omega⟩
      rw [deeper, deeper]
      exact guarded _ _ c (moves depth) (moves depth')
        (fun index c' fewer => ih depth' index c' (by omega) (by omega)) index
  have deep (depth : Nat) (index : ι) (c : Cursor) (room : c.left < depth) :
      within depth index c = reader index c :=
    (enough depth (c.left + 1) index c room (Nat.lt_succ_self _)).trans (reads index c).symm
  have unfolds : layer reader = reader := by
    funext index c
    rw [reads, deeper]
    exact guarded _ _ c readerMoves (moves c.left)
      (fun index c' fewer => (deep c.left index c' fewer).symm) index
  refine ⟨guarded, unfolds, fun other otherMoves otherUnfolds => ?_, deep⟩
  -- Any other reader with that equation agrees with it, by induction on the tokens left.
  have agree (left : Nat) (index : ι) (c : Cursor) (within : c.left = left) :
      other index c = reader index c := by
    induction left using Nat.strongRecOn generalizing index c with
    | _ left ih =>
      subst within
      rw [← otherUnfolds, ← unfolds]
      exact guarded _ _ c otherMoves readerMoves (fun index c' fewer => ih _ fewer index c' rfl)
        index
  exact funext fun index => funext fun c => agree _ index c rfl

end Recursion

namespace Parser

open Cursor

/-- Reads an expression at one of the forms. -/
def exprAt (form : Form) : Parser Expr := fun c => exprWithin (c.left + 1) form c

theorem exprAt_terminates : Terminates ofForm exprWithin exprAt := by
  refine terminates_of_guarded (fun nested nested' c moves moves' same form => ?_)
    (fun _ _ => rfl) exprWithin_moves fun _ _ => rfl
  have nests := agreeing_same moves moves' same
  rw [← Expr.moved_id_eq] at nests
  have agrees := ofForm_agrees nests (alike_same c) (Nat.le_refl _) form
  rw [show Expr.moved Frame.same.move = id from Expr.moved_id_eq] at agrees
  exact agrees.eq_of_same.symm

theorem stmt?_terminates :
    Terminates (fun nested (_ : Unit) => stmtOf (nested ())) (fun depth _ => stmtWithin depth)
      fun _ => stmt? := by
  refine terminates_of_guarded (fun nested nested' c moves moves' same _ => ?_)
    (fun _ _ => rfl) (fun depth _ => stmtWithin_moves depth) fun _ _ => rfl
  -- Moving nothing is a frame too, in which both runs are on the same tokens.
  have moved : Option.map (Stmt.moved id) = id := by
    rw [show Stmt.moved id = id from funext Stmt.moved_id, Option.map_id_fun]
  have nests : Agreeing Frame.same c.left (Option.map (Stmt.moved id))
      (fun _ : Unit => nested ()) fun _ : Unit => nested' () := by
    rw [moved]
    exact agreeing_same moves moves' same
  have agrees := stmtOf_agrees nests (alike_same c) (Nat.le_refl _)
  rw [show Option.map (Stmt.moved Frame.same.move) = id from moved] at agrees
  exact agrees.eq_of_same.symm

theorem member?_terminates : Terminates memberOf memberWithin member? := by
  refine terminates_of_guarded (fun nested nested' c moves moves' same enclosing => ?_)
    (fun _ _ => rfl) memberWithin_moves fun _ _ => rfl
  have moved : Option.map (Member.moved id) = id := by
    rw [show Member.moved id = id from funext Member.moved_id, Option.map_id_fun]
  have nests := agreeing_same moves moves' same
  rw [← moved] at nests
  have agrees := memberOf_agrees nests rfl (alike_same c) (Nat.le_refl _) enclosing
  rw [show Option.map (Member.moved Frame.same.move) = id from moved] at agrees
  exact agrees.eq_of_same.symm

/-! ## A unit is read to its end -/

variable {α : Type} {c : Cursor}

/-- What is collected ends where a step declines. -/
private theorem collect_declined {step : Parser (Option (List α))} (winds : step.Winds)
    (c : Cursor) : ∃ c' : Cursor, (step c').1 = none ∧ (collect step c).2 = (step c').2 := by
  induction left : c.left using Nat.strongRecOn generalizing c with
  | _ left ih =>
    subst left
    rw [collect_eq winds, run_bind]
    cases taken : (step c).1 with
    | none => exact ⟨c, taken, rfl⟩
    | some values =>
      have fewer := (winds.consumes c).left_lt taken
      exact ih _ fewer (step c).2 rfl

/-- Only at the end is there no further declaration, not even one that is given up. -/
private theorem unitStep_declined (declined : (unitStep c).1 = none) : c.rest = [] := by
  by_contra nonempty
  have notAtEnd : ¬c.atEnd = true := fun atEnd => nonempty (List.isEmpty_iff.mp atEnd)
  rw [unitStep, run_bind, run_get, if_neg notAtEnd, run_bind] at declined
  cases declared : (typeDecl? member? c).1 with
  | none =>
    rw [declared] at declined
    cases declined
  | some decl =>
    rw [declared] at declined
    cases declined

theorem compilationUnit_rest (c : Cursor) : (compilationUnit c).2.rest = [] := by
  obtain ⟨end₁, declined, stands⟩ :=
    collect_declined unitStep_winds (iterate importStep () c).2
  have atEnd := unitStep_declined declined
  have ended : (compilationUnit c).2 = (collect unitStep (iterate importStep () c).2).2 := rfl
  rw [ended, stands, unitStep_winds.declines end₁ atEnd]
  exact atEnd

/-! ## All repetitions, and all readers -/

/-- Every step that the parser repeats declines at the end of the tokens, and reads a token
where it goes on. -/
structure StepsWind : Prop where
  skip : ∀ go value, (skipStep go value).Winds
  skipGroup : ∀ opening closing depth, (skipGroupStep opening closing depth).Winds
  groupText : ∀ opening closing group, (groupTextStep opening closing group).Winds
  dotted : ∀ name, (dottedStep name).Winds
  brackets : ∀ type, (bracketsStep type).Winds
  castType : ∀ type, (castTypeStep type).Winds
  value : ∀ value, (valueStep value).Winds
  annotationArgument : annotationArgumentStep.Winds
  modifier : modifierStep.Winds
  variableModifier : ∀ value, (variableModifierStep value).Winds
  argument : (argumentStep exprAt).Winds
  dimension : ∀ value, (dimensionStep value).Winds
  postfixed : ∀ expr, (postfixedStep exprAt expr).Winds
  binary : ∀ minimum left, (binaryStep exprAt minimum left).Winds
  block : (blockStep stmt?).Winds
  catches : ∀ value, (catchStep value).Winds
  param : paramStep.Winds
  constant : ∀ value, (constantStep value).Winds
  field : ∀ value, (fieldStep value).Winds
  member : ∀ typeName, (memberStep member? typeName).Winds
  imports : ∀ value, (importStep value).Winds
  unit : unitStep.Winds

private theorem exprAt_moves (form : Form) : (exprAt form).Moves :=
  fun c => exprWithin_moves (c.left + 1) form c

theorem steps_wind : StepsWind where
  skip := skipStep_winds
  skipGroup := skipGroupStep_winds
  groupText := groupTextStep_winds
  dotted := dottedStep_winds
  brackets := bracketsStep_winds
  castType := castTypeStep_winds
  value := valueStep_winds
  annotationArgument := annotationArgumentStep_winds
  modifier := modifierStep_winds
  variableModifier := variableModifierStep_winds
  argument := argumentStep_winds exprAt_moves
  dimension := dimensionStep_winds
  postfixed := postfixedStep_winds exprAt_moves
  binary := binaryStep_winds exprAt_moves
  block := blockStep_winds stmt?_moves
  catches := catchStep_winds
  param := paramStep_winds
  constant := constantStep_winds
  field := fieldStep_winds
  member := memberStep_winds member?_moves
  imports := importStep_winds
  unit := unitStep_winds

/-- No step that the parser repeats goes back behind where it began, or past the last token. -/
structure StepsMove : Prop where
  skip : ∀ go value, (skipStep go value).Moves
  skipGroup : ∀ opening closing depth, (skipGroupStep opening closing depth).Moves
  groupText : ∀ opening closing group, (groupTextStep opening closing group).Moves
  dotted : ∀ name, (dottedStep name).Moves
  brackets : ∀ type, (bracketsStep type).Moves
  castType : ∀ type, (castTypeStep type).Moves
  value : ∀ value, (valueStep value).Moves
  annotationArgument : annotationArgumentStep.Moves
  modifier : modifierStep.Moves
  variableModifier : ∀ value, (variableModifierStep value).Moves
  argument : (argumentStep exprAt).Moves
  dimension : ∀ value, (dimensionStep value).Moves
  postfixed : ∀ expr, (postfixedStep exprAt expr).Moves
  binary : ∀ minimum left, (binaryStep exprAt minimum left).Moves
  block : (blockStep stmt?).Moves
  catches : ∀ value, (catchStep value).Moves
  param : paramStep.Moves
  constant : ∀ value, (constantStep value).Moves
  field : ∀ value, (fieldStep value).Moves
  member : ∀ typeName, (memberStep member? typeName).Moves
  imports : ∀ value, (importStep value).Moves
  unit : unitStep.Moves

private theorem steps_move : StepsMove where
  skip := skipStep_moves
  skipGroup := skipGroupStep_moves
  groupText := groupTextStep_moves
  dotted := dottedStep_moves
  brackets := bracketsStep_moves
  castType := castTypeStep_moves
  value := valueStep_moves
  annotationArgument := annotationArgumentStep_moves
  modifier := modifierStep_moves
  variableModifier := variableModifierStep_moves
  argument := argumentStep_moves exprAt_moves
  dimension := dimensionStep_moves
  postfixed := postfixedStep_moves exprAt_moves
  binary := binaryStep_moves exprAt_moves
  block := blockStep_moves stmt?_moves
  catches := catchStep_moves
  param := paramStep_moves
  constant := constantStep_moves
  field := fieldStep_moves
  member := memberStep_moves member?_moves
  imports := importStep_moves
  unit := unitStep_moves

/-- No reader goes back behind where it began, or past the last token: neither one of a construct,
nor one of single tokens, nor a step of a repetition. -/
structure ReadersMove : Prop where
  unit : compilationUnit.Moves
  typeDecl : (typeDecl? member?).Moves
  typeKind : typeKind?.Moves
  typeBody : ∀ typeName isEnum, (typeBody member? typeName isEnum).Moves
  enumConstants : enumConstants.Moves
  member : ∀ enclosing, (member? enclosing).Moves
  plainMember : ∀ start notes enclosing, (plainMember start notes enclosing).Moves
  typedMember : ∀ start notes, (typedMember start notes).Moves
  method : ∀ start notes type name, (methodRest start notes type name).Moves
  methodBody : methodBody.Moves
  defaultValue : defaultValue.Moves
  constructor : ∀ start, (constructorRest start).Moves
  initializer : ∀ start isStatic, (initializerRest start isStatic).Moves
  field : ∀ start type name, (fieldRest start type name).Moves
  params : paramList.Moves
  throwsClause : throwsClause.Moves
  modifiers : modifiersAndAnnotations.Moves
  variableModifiers : variableModifiers.Moves
  annotation : annotation.Moves
  annotationArgument : annotationArgument.Moves
  annotationValue : annotationValue.Moves
  argumentName : argumentName.Moves
  type : typeRef?.Moves
  typeAfter : ∀ keyword, (typeAfter keyword).Moves
  name : qualifiedName.Moves
  block : block.Moves
  statement : stmt?.Moves
  governed : (governed stmt?).Moves
  parenthesized : parenthesized.Moves
  localVariable : localStmt?.Moves
  localHead : localHead?.Moves
  conditional : (ifStmt stmt?).Moves
  loop : (whileStmt stmt?).Moves
  outlined : ∀ keyword, (outlinedStmt stmt? keyword).Moves
  skipOutlined : ∀ keyword, (skipOutlined stmt? keyword).Moves
  returns : returnStmt.Moves
  throws : throwStmt.Moves
  asserts : assertStmt.Moves
  evaluates : exprStmt.Moves
  expression : ∀ form, (exprAt form).Moves
  lambda : (lambda? exprAt).Moves
  instanceOf : ∀ operand, (instanceOf operand).Moves
  signed : (signed exprAt).Moves
  cast : (cast? exprAt).Moves
  castType : castType?.Moves
  postfixed : (postfixed exprAt).Moves
  primary : (primary exprAt).Moves
  new : (newExpr exprAt).Moves
  arguments : (argumentList exprAt).Moves
  skipGroup : ∀ opening closing, (skipGroup opening closing).Moves
  groupText : ∀ opening closing, (groupText opening closing).Moves
  skipWhile : ∀ go, (skipWhile go).Moves
  skip : ∀ kind, (skip kind).Moves
  skipWord : ∀ word, (skipWord word).Moves
  expectAs : ∀ kind wanted, (expectAs kind wanted).Moves
  expect : ∀ kind, (expect kind).Moves
  advanceBy : ∀ count, (advanceBy count).Moves
  advance : advance.Moves
  token : advance?.Moves
  report : ∀ wanted, (report wanted).Moves
  steps : StepsMove

theorem readers_move : ReadersMove where
  unit := compilationUnit_moves
  typeDecl := typeDecl?_moves member?_moves
  typeKind := typeKind?_moves
  typeBody := typeBody_moves member?_moves
  enumConstants := enumConstants_moves
  member := member?_moves
  plainMember := plainMember_moves
  typedMember := typedMember_moves
  method := methodRest_moves
  methodBody := methodBody_moves
  defaultValue := defaultValue_moves
  constructor := constructorRest_moves
  initializer := initializerRest_moves
  field := fieldRest_moves
  params := paramList_moves
  throwsClause := throwsClause_moves
  modifiers := modifiersAndAnnotations_moves
  variableModifiers := variableModifiers_moves
  annotation := annotation_moves
  annotationArgument := annotationArgument_moves
  annotationValue := annotationValue_moves
  argumentName := argumentName_moves
  type := typeRef?_moves
  typeAfter := typeAfter_moves
  name := qualifiedName_moves
  block := block_moves
  statement := stmt?_moves
  governed := governed_moves stmt?_moves
  parenthesized := parenthesized_moves
  localVariable := localStmt?_moves
  localHead := localHead?_moves
  conditional := ifStmt_moves stmt?_moves
  loop := whileStmt_moves stmt?_moves
  outlined := outlinedStmt_moves stmt?_moves
  skipOutlined := skipOutlined_moves stmt?_moves
  returns := returnStmt_moves
  throws := throwStmt_moves
  asserts := assertStmt_moves
  evaluates := exprStmt_moves
  expression := exprAt_moves
  lambda := lambda?_moves exprAt_moves
  instanceOf := instanceOf_moves
  signed := signed_moves exprAt_moves
  cast := cast?_moves exprAt_moves
  castType := castType?_moves
  postfixed := postfixed_moves exprAt_moves
  primary := primary_moves exprAt_moves
  new := newExpr_moves exprAt_moves
  arguments := argumentList_moves exprAt_moves
  skipGroup := skipGroup_moves
  groupText := groupText_moves
  skipWhile := skipWhile_moves
  skip := skip_moves
  skipWord := skipWord_moves
  expectAs := expectAs_moves
  expect := expect_moves
  advanceBy := advanceBy_moves
  advance := advance_moves
  token := advance?_moves
  report := report_moves
  steps := steps_move

/-- The parser ends on every sequence of tokens, and a unit is read to its last token. The
readers that the entry points run are those that satisfy the recursion without a depth. -/
theorem parser_terminates :
    (expr = exprAt .assignment ∧ Terminates ofForm exprWithin exprAt) ∧
      (block = blockOf stmt? ∧ Terminates (fun nested (_ : Unit) => stmtOf (nested ()))
        (fun depth _ => stmtWithin depth) fun _ => stmt?) ∧
      Terminates memberOf memberWithin member? ∧ StepsWind ∧ ReadersMove ∧
      ∀ c, (compilationUnit c).2.rest = [] :=
  ⟨⟨rfl, exprAt_terminates⟩, ⟨rfl, stmt?_terminates⟩, member?_terminates, steps_wind,
    readers_move, compilationUnit_rest⟩

end Parser
end MethodContracts.Source
