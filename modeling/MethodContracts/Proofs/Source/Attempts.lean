import MethodContracts.Proofs.Source.Enclosing
import MethodContracts.Proofs.Source.Parsing

/-!
# Attempts that are given up

A parser that finds out too late that something else stands at the cursor goes back to where
it began. The readers of local variables, of casts and of lambdas drop the errors that they
found on the way; the reader of types keeps those in the modifiers and annotations in front.
Everything else only reads on and reports where it stands. So the errors of a text are in the
order of their places exactly if no attempt to read a type, among those of the unit that are
given up, has found an error.
-/
namespace MethodContracts.Source

/-- Errors one behind the other, as far as the places go where they begin. -/
def ErrorsInOrder (errors : List SyntaxError) : Prop :=
  errors.Pairwise (·.span.start ≤ ·.span.start)

instance (errors : List SyntaxError) : Decidable (ErrorsInOrder errors) :=
  inferInstanceAs (Decidable (errors.Pairwise (·.span.start ≤ ·.span.start)))

namespace Cursor

variable {c c' c'' : Cursor} {token : Token} {rest : List Token}

/-- Every token begins behind the one before it, and the text ends behind all of them. -/
structure Ascending (c : Cursor) : Prop where
  tokens : c.rest.Pairwise (·.span.start < ·.span.start)
  textEnd : ∀ token ∈ c.rest, token.span.start < c.textEnd

theorem Ascending.here_lt_next (ascending : c.Ascending) (found : c.rest = token :: rest) :
    c.here < c.next.here := by
  have tokens := ascending.tokens
  have textEnd := ascending.textEnd token
  simp only [here, next, found] at tokens textEnd ⊢
  cases rest with
  | nil => exact textEnd List.mem_cons_self
  | cons second rest => exact (List.pairwise_cons.mp tokens).1 second List.mem_cons_self

theorem Ascending.next (ascending : c.Ascending) : c.next.Ascending := by
  unfold Cursor.next
  split
  next token rest found =>
    have tokens := ascending.tokens
    have textEnd := ascending.textEnd
    rw [found] at tokens textEnd
    exact ⟨(List.pairwise_cons.mp tokens).2, (List.forall_mem_cons.mp textEnd).2⟩
  next => exact ascending

theorem Ascending.here_le_next (ascending : c.Ascending) : c.here ≤ c.next.here := by
  cases found : c.rest with
  | nil => simp only [Cursor.next, found, Nat.le_refl]
  | cons token rest => exact Nat.le_of_lt (ascending.here_lt_next found)

/-- From `c` to `c'` errors were only added: in order, and between the places of the two. -/
structure Logs (c c' : Cursor) : Prop where
  ascending : c'.Ascending
  here_le : c.here ≤ c'.here
  errors : ∃ found, c'.errors = c.errors ++ found ∧ ErrorsInOrder found ∧
    ∀ error ∈ found, c.here ≤ error.span.start ∧ error.span.start ≤ c'.here

/-- The relation that reading tokens and reporting errors keep. It asks for ascending tokens,
since only then does reading on not go back to an earlier place. -/
def KeepsOrder (c c' : Cursor) : Prop := c.Ascending → c.Logs c'

theorem Logs.refl (ascending : c.Ascending) : c.Logs c :=
  ⟨ascending, Nat.le_refl _, [], (List.append_nil _).symm, .nil, List.forall_mem_nil _⟩

theorem Logs.trans (first : c.Logs c') (second : c'.Logs c'') : c.Logs c'' := by
  obtain ⟨found, isFound, inOrder, within⟩ := first.errors
  obtain ⟨found', isFound', inOrder', within'⟩ := second.errors
  refine ⟨second.ascending, Nat.le_trans first.here_le second.here_le, found ++ found', ?_, ?_, ?_⟩
  · rw [isFound', isFound, List.append_assoc]
  · -- The place between the two runs separates their errors.
    refine List.pairwise_append.mpr ⟨inOrder, inOrder', fun error member error' member' => ?_⟩
    exact Nat.le_trans (within error member).2 (within' error' member').1
  · refine List.forall_mem_append.mpr ⟨fun error member => ?_, fun error member => ?_⟩
    · exact ⟨(within error member).1, Nat.le_trans (within error member).2 second.here_le⟩
    · exact ⟨Nat.le_trans first.here_le (within' error member).1, (within' error member).2⟩

theorem Logs.next (ascending : c.Ascending) : c.Logs c.next where
  ascending := ascending.next
  here_le := ascending.here_le_next
  errors := ⟨[], by rw [errors_next, List.append_nil], .nil, List.forall_mem_nil _⟩

private theorem place_start (c : Cursor) : c.place.start = c.here := by
  unfold place here
  split <;> rfl

theorem Logs.report (ascending : c.Ascending) (wanted : Wanted) : c.Logs (c.report wanted) where
  ascending := ⟨ascending.tokens, ascending.textEnd⟩
  here_le := Nat.le_refl _
  errors := by
    refine ⟨_, rfl, List.pairwise_singleton _ _, List.forall_mem_singleton.mpr ?_⟩
    exact ⟨Nat.le_of_eq c.place_start.symm, Nat.le_of_eq c.place_start⟩

instance : Tracks KeepsOrder where
  refl _ := Logs.refl
  trans first second ascending := (first ascending).trans (second (first ascending).ascending)
  next _ := Logs.next
  report _ wanted ascending := Logs.report ascending wanted

end Cursor

private theorem ofText_ascending (text : String) : (Cursor.ofText text 0).Ascending where
  tokens := by
    have tiles := tokens_tiles text 0
    refine tiles.ordered.imp_of_mem fun first _ ordered => ?_
    exact Nat.lt_of_lt_of_le (tiles.start_lt_stop first) ordered
  textEnd token member := by
    have tiles := tokens_tiles text 0
    have within := (tiles.slice member).boundaries.2.within.2
    exact Nat.lt_of_lt_of_le (tiles.start_lt_stop member) within

namespace Parser

open Cursor

variable {c c' : Cursor}

/-! ## Going back -/

/-- A parser that always yields a value. -/
def Succeeds {α : Type} (parser : Parser (Option α)) : Prop := ∀ c : Cursor, (parser c).1 ≠ none

theorem Succeeds.pure {α : Type} (value : α) : Succeeds (Pure.pure (some value)) :=
  fun _ => Option.some_ne_none value

theorem Succeeds.after {α β : Type} {parser : Parser α} {next : α → Parser (Option β)}
    (rest : ∀ value, (next value).Succeeds) : (parser >>= next).Succeeds := fun _ => rest _ _

theorem Succeeds.ite {α : Type} {condition : Prop} [Decidable condition]
    {first second : Parser (Option α)} (whenTrue : first.Succeeds) (whenFalse : second.Succeeds) :
    Succeeds (if condition then first else second) := by
  split
  · exact whenTrue
  · exact whenFalse

/-- What is no declaration of a local variable leaves no trace. -/
theorem localStmt?_abandoned (abandoned : (localStmt? c).1 = none) : (localStmt? c).2 = c := by
  simp only [localStmt?, run_bind, run_get] at abandoned ⊢
  cases read : (localHead? c).1 with
  | none => rfl
  | some found =>
    rw [read] at abandoned
    -- Behind the head no way leads to giving up.
    have finish (init : Option Expr) : Succeeds (do
        let closing ← expect .semicolon
        return some (Stmt.local found.1 found.2.text found.2.span init
          ⟨c.here, closing.span.stop⟩)) := .after fun _ => .pure _
    refine absurd abandoned (Succeeds.after (fun _ => .ite ?_ ?_) (localHead? c).2)
    · exact .after fun _ => .after finish
    · exact .after finish

theorem cast?_abandoned {nested : Form → Parser Expr} (abandoned : (cast? nested c).1 = none) :
    (cast? nested c).2 = c := by
  simp only [cast?, run_bind, run_get, run_advance] at abandoned ⊢
  cases read : (castType? c.next).1 with
  | none => rfl
  | some type =>
    rw [read] at abandoned
    refine absurd abandoned (Succeeds.after (fun _ => .after fun lambda => ?_) (castType? c.next).2)
    cases lambda with
    | some lambda => exact .after fun _ => .pure _
    | none => exact .after fun _ => .pure _

/-- A lambda is looked for ahead of reading. -/
theorem lambda?_abandoned {nested : Form → Parser Expr}
    (abandoned : (lambda? nested c).1 = none) : (lambda? nested c).2 = c := by
  simp only [lambda?, run_bind, run_get] at abandoned ⊢
  cases params : c.lambdaParams? with
  | none => rfl
  | some count =>
    rw [params] at abandoned
    have finish (_ : Unit) : Succeeds (do
        let after ← get
        return some (Expr.lambda (after.since c.here))) := .after fun _ => .pure _
    refine absurd abandoned (Succeeds.after (fun _ => .after fun _ => .ite ?_ ?_) c)
    · exact .after finish
    · exact .after finish

/-! ## Reading on -/

private theorem memberWithin_keepsOrder (depth : Nat) (enclosing : String) :
    (memberWithin depth enclosing).Along KeepsOrder := by
  induction depth generalizing enclosing with
  | zero => exact .pure none
  | succ depth ih =>
    -- Inside a member a type is read only where one begins, and so it is not given up.
    exact memberOf_along (fun c atType => typeDecl?_along ih (typeDecl?_atType atType)) enclosing

private theorem member?_keepsOrder (enclosing : String) : (member? enclosing).Along KeepsOrder :=
  Along.get.bind fun _ => memberWithin_keepsOrder _ _

/-- A step over a unit: its end, a token that begins no type, or a type. -/
private theorem unitStep_cases (c : Cursor) :
    c.rest = [] ∧ unitStep c = (none, c) ∨
      c.rest ≠ [] ∧ (typeDecl? member? c).1 = none ∧
        (unitStep c).2 = ((typeDecl? member? c).2.report .typeDeclaration).next ∨
      (typeDecl? member? c).1 ≠ none ∧ (unitStep c).2 = (typeDecl? member? c).2 := by
  by_cases atEnd : c.rest = []
  · exact .inl ⟨atEnd, unitStep_winds.declines c atEnd⟩
  have more : ¬c.atEnd = true := fun ended => atEnd (List.isEmpty_iff.mp ended)
  rw [unitStep, run_bind, run_get, if_neg more, run_bind]
  cases read : (typeDecl? member? c).1 with
  | none => exact .inr (.inl ⟨atEnd, rfl, rfl⟩)
  | some decl => exact .inr (.inr ⟨Option.some_ne_none decl, rfl⟩)

/-- An attempt at a type that is given up at this cursor leaves no trace. -/
def Tidy (c : Cursor) : Prop :=
  (typeDecl? member? c).1 = none → (typeDecl? member? c).2 = c

private theorem unitStep_keepsOrder (tidy : Tidy c) : c.KeepsOrder (unitStep c).2 := by
  rcases unitStep_cases c with ⟨-, ended⟩ | ⟨-, undeclared, step⟩ | ⟨declared, step⟩
  · rw [ended]
    exact Tracks.refl c
  · rw [step, tidy undeclared]
    exact Tracks.trans (Tracks.report c _) (Tracks.next _)
  · rw [step]
    exact typeDecl?_along member?_keepsOrder declared

private theorem unitStep_ascending (ascending : c.Ascending) : (unitStep c).2.Ascending := by
  rcases unitStep_cases c with ⟨-, ended⟩ | ⟨-, undeclared, step⟩ | ⟨declared, step⟩
  · rw [ended]
    exact ascending
  · rw [step, typeDecl?_undeclared undeclared]
    exact Ascending.next ⟨ascending.tokens, ascending.textEnd⟩
  · rw [step]
    have read : c.KeepsOrder (typeDecl? member? c).2 :=
      typeDecl?_along member?_keepsOrder declared
    exact (read ascending).ascending

/-! ## The attempts of a unit -/

/-- In a unit whose types begin at `c`, one is looked for at `c'`. -/
inductive Attempts (c : Cursor) : Cursor → Prop where
  | first : Attempts c c
  | later {c' : Cursor} (earlier : Attempts c c') (goesOn : (unitStep c').1 ≠ none) :
    Attempts c (unitStep c').2

theorem Attempts.of_next (goesOn : (unitStep c).1 ≠ none) (attempts : Attempts (unitStep c).2 c') :
    Attempts c c' := by
  induction attempts with
  | first => exact .later .first goesOn
  | later _ goesOn' ih => exact .later ih goesOn'

private theorem collect_unitStep_declined (declined : (unitStep c).1 = none) :
    (collect unitStep c).2 = (unitStep c).2 := by
  rw [collect_eq unitStep_winds, run_bind, declined]
  rfl

private theorem collect_unitStep_goesOn (goesOn : (unitStep c).1 ≠ none) :
    (collect unitStep c).2 = (collect unitStep (unitStep c).2).2 := by
  -- The equation is used once, on the left; the right side is the same repetition.
  obtain ⟨decls, read⟩ := Option.ne_none_iff_exists'.mp goesOn
  have equation := congrArg (fun parser : Parser _ => (parser c).2) (collect_eq unitStep_winds)
  rw [run_bind, read] at equation
  exact equation

/-- All attempts are on the way to the same end. -/
theorem Attempts.collect_eq (attempts : Attempts c c') :
    (collect unitStep c).2 = (collect unitStep c').2 := by
  induction attempts with
  | first => rfl
  | later _ goesOn ih => rw [ih, collect_unitStep_goesOn goesOn]

/-- If no attempt leaves a trace, the errors of the types are found in order. -/
private theorem collect_unitStep_keepsOrder (tidy : ∀ c', Attempts c c' → Tidy c') :
    c.KeepsOrder (collect unitStep c).2 := by
  -- A step that goes on leaves fewer tokens, and its attempts are attempts from here.
  induction bound : c.left using Nat.strongRecOn generalizing c with
  | ind bound ih =>
    have first := unitStep_keepsOrder (tidy c .first)
    by_cases declined : (unitStep c).1 = none
    · rw [collect_unitStep_declined declined]
      exact first
    · rw [collect_unitStep_goesOn declined]
      have fewer := unitStep_winds.consumes c declined
      refine Tracks.trans first (ih _ (bound ▸ fewer) (fun c' attempts => ?_) rfl)
      exact tidy c' (attempts.of_next declined)

/-! ## What an attempt leaves -/

private theorem annotation_first {note : Annotation} (atSign : c.atKind .atSign = true)
    (read : annotation c = (note, c')) : c.next.KeepsOrder c' := by
  -- The sign is there, so nothing is reported in front of the name.
  obtain ⟨sign, tokens, found, isSign⟩ := exists_of_atKind atSign
  obtain ⟨rest, split, moves⟩ := annotation_eq_bind (R := KeepsOrder)
  rw [split, run_bind, expect_eq found isSign] at read
  obtain rfl := congrArg Prod.snd read
  exact moves sign c.next

/-- A modifier or an annotation is read on from its second token, if there is one. -/
private theorem modifierStep_first :
    modifierStep c = (none, c) ∨ c.rest ≠ [] ∧ c.next.KeepsOrder (modifierStep c).2 := by
  rw [modifierStep, run_bind, run_get]
  -- The cases are the tests of the step in their order.
  by_cases atSign : c.atKind .atSign = true
  · rw [if_pos atSign]
    by_cases atType : c.atAnnotationType = true
    · exact .inl (by rw [if_pos atType, run_pure])
    · refine .inr ⟨rest_ne_nil atSign, ?_⟩
      rw [if_neg atType]
      exact annotation_first atSign rfl
  rw [if_neg atSign]
  by_cases atModifier : c.atModifier = true
  · have more : c.rest ≠ [] := rest_ne_nil (Bool.and_eq_true_iff.mp atModifier).1
    rw [if_pos atModifier]
    by_cases nonSealed : c.atNonSealed = true
    · refine .inr ⟨more, ?_⟩
      rw [if_pos nonSealed]
      exact advanceBy_moves 2 c.next
    rw [if_neg nonSealed]
    by_cases atBlock : c.atStaticBlock = true
    · exact .inl (by rw [if_pos atBlock, run_pure])
    · refine .inr ⟨more, ?_⟩
      rw [if_neg atBlock]
      exact Tracks.refl c.next
  · exact .inl (by rw [if_neg atModifier, run_pure])

private theorem modifiersAndAnnotations_first : modifiersAndAnnotations c = ([], c) ∨
    c.rest ≠ [] ∧ c.next.KeepsOrder (modifiersAndAnnotations c).2 := by
  rw [modifiersAndAnnotations, collect_eq modifierStep_winds, run_bind]
  rcases modifierStep_first (c := c) with declined | ⟨more, first⟩
  · rw [declined]
    exact .inl rfl
  · refine .inr ⟨more, Tracks.trans first ?_⟩
    cases (modifierStep c).1 with
    | none => exact Tracks.refl _
    | some notes =>
      exact (collect_moves modifierStep_moves).bind (fun _ => .pure _) (modifierStep c).2

/-- Errors that an attempt leaves begin behind the place where the attempt begins. -/
private theorem typeDecl?_leaves (ascending : c.Ascending)
    (undeclared : (typeDecl? member? c).1 = none) :
    ∃ found, (typeDecl? member? c).2 = { c with errors := c.errors ++ found } ∧
      (c.rest = [] → found = []) ∧ ∀ error ∈ found, c.here < error.span.start := by
  rw [typeDecl?_undeclared undeclared]
  rcases modifiersAndAnnotations_first (c := c) with declined | ⟨more, keepsOrder⟩
  · refine ⟨[], ?_, fun _ => rfl, List.forall_mem_nil _⟩
    rw [declined, List.append_nil]
  · obtain ⟨found, isFound, -, within⟩ := (keepsOrder ascending.next).errors
    obtain ⟨token, rest, isRest⟩ := List.exists_cons_of_ne_nil more
    refine ⟨found, ?_, fun atEnd => absurd atEnd more, fun error member => ?_⟩
    · rw [isFound, errors_next]
    · exact Nat.lt_of_lt_of_le (ascending.here_lt_next isRest) (within error member).1

/-- Behind an attempt that leaves an error, another one is reported in front of it. -/
private theorem tidy_of_inOrder (ascending : c.Ascending)
    (inOrder : ErrorsInOrder (unitStep c).2.errors) : Tidy c := by
  intro undeclared
  obtain ⟨found, isFound, noneAtEnd, behind⟩ := typeDecl?_leaves ascending undeclared
  have none : found = [] := by
    rcases unitStep_cases c with ⟨atEnd, -⟩ | ⟨-, -, step⟩ | ⟨declared, -⟩
    · exact noneAtEnd atEnd
    · -- The token that begins no type is reported last, at the place where the attempt began.
      refine List.eq_nil_iff_forall_not_mem.mpr fun error member => ?_
      rw [step, isFound, errors_next, Cursor.report] at inOrder
      have reported := (List.pairwise_append.mp inOrder).2.2 error
        (List.mem_append_right _ member) _ List.mem_cons_self
      have place : ({ c with errors := c.errors ++ found } : Cursor).place.start = c.here :=
        c.place_start
      exact absurd (behind error member) (Nat.not_lt_of_le (place ▸ reported))
    · exact absurd undeclared declared
  rw [isFound, none, List.append_nil]

/-! ## The errors of a text -/

/-- Where the types of a text begin, behind its imports. -/
def typesStart (text : String) : Cursor := (iterate importStep () (.ofText text 0)).2

private theorem parse_errors (text : String) :
    (parse text).errors = (collect unitStep (typesStart text)).2.errors := rfl

private theorem typesStart_keepsOrder (text : String) :
    (Cursor.ofText text 0).KeepsOrder (typesStart text) :=
  iterate_moves importStep_moves () _

theorem Attempts.ascending (ascending : c.Ascending) (attempts : Attempts c c') :
    c'.Ascending := by
  induction attempts with
  | first => exact ascending
  | later _ _ ih => exact unitStep_ascending ih

theorem Attempts.errors_prefix (attempts : Attempts c c') :
    (unitStep c').2.errors <+: (collect unitStep c).2.errors := by
  rw [attempts.collect_eq]
  by_cases declined : (unitStep c').1 = none
  · rw [collect_unitStep_declined declined]
  · rw [collect_unitStep_goesOn declined]
    exact (collect_moves unitStep_moves (unitStep c').2).errors

/-- The errors of a text are in order exactly if no attempt at a type leaves one. -/
theorem parse_inOrder_iff (text : String) : ErrorsInOrder (parse text).errors ↔
    ∀ c, Attempts (typesStart text) c → Tidy c := by
  have ascending := ofText_ascending text
  have start := typesStart_keepsOrder text ascending
  rw [parse_errors]
  constructor
  · -- What was reported up to an attempt is a front of all errors.
    intro inOrder c attempts
    apply tidy_of_inOrder (attempts.ascending start.ascending)
    exact List.Pairwise.sublist attempts.errors_prefix.sublist inOrder
  · intro tidy
    obtain ⟨found, isFound, inOrder, -⟩ :=
      (start.trans (collect_unitStep_keepsOrder tidy start.ascending)).errors
    rw [isFound]
    exact inOrder

/-- An attempt at a type leaves no trace exactly if what stands in front of the type is read
without an error. -/
theorem typeDecl?_traceless_iff {nested : String → Parser (Option Member)}
    (undeclared : (typeDecl? nested c).1 = none) :
    (typeDecl? nested c).2 = c ↔ (modifiersAndAnnotations c).2.errors = c.errors := by
  rw [typeDecl?_undeclared undeclared]
  constructor
  · intro same
    have errors := congrArg Cursor.errors same
    exact errors
  · intro same
    rw [same]

/-- An attempt that is given up goes back to where it began. At a local variable, a cast or a
lambda it leaves no trace; at a type it leaves the errors in what stands in front of the type,
and so no trace exactly if there are none. The errors of a text are in order exactly if no
attempt at a type leaves one. -/
theorem abandoned_attempts (c : Cursor) (nested : Form → Parser Expr)
    (member : String → Parser (Option Member)) (text : String) :
    ((localStmt? c).1 = none → (localStmt? c).2 = c) ∧
    ((cast? nested c).1 = none → (cast? nested c).2 = c) ∧
    ((lambda? nested c).1 = none → (lambda? nested c).2 = c) ∧
    ((typeDecl? member c).1 = none →
      (typeDecl? member c).2 = { c with errors := (modifiersAndAnnotations c).2.errors } ∧
      ((typeDecl? member c).2 = c ↔ (modifiersAndAnnotations c).2.errors = c.errors)) ∧
    (ErrorsInOrder (parse text).errors ↔ ∀ c', Attempts (typesStart text) c' → Tidy c') := by
  refine ⟨localStmt?_abandoned, cast?_abandoned, lambda?_abandoned, fun undeclared => ?_,
    parse_inOrder_iff text⟩
  exact ⟨typeDecl?_undeclared undeclared, typeDecl?_traceless_iff undeclared⟩

theorem abandoned_attempts_guarded :
    (localStmt? (.ofText "(a) - b;" 0)).2 = .ofText "(a) - b;" 0 ∧
    (cast? (exprWithin 5) (.ofText "(a) - b;" 0)).2 = .ofText "(a) - b;" 0 ∧
    (lambda? (exprWithin 5) (.ofText "(a) - b;" 0)).2 = .ofText "(a) - b;" 0 ∧
    (typeDecl? member? (.ofText "@A int b;" 0)).2 = .ofText "@A int b;" 0 ∧
    Tidy (typesStart "import a; ; class B { }") := by
  obtain ⟨localStmt, cast, lambda, -, order⟩ := abandoned_attempts (.ofText "(a) - b;" 0)
    (exprWithin 5) member? "import a; ; class B { }"
  obtain ⟨-, -, -, type, -⟩ := abandoned_attempts (.ofText "@A int b;" 0) (exprWithin 5) member? ""
  refine ⟨localStmt (by decide +kernel), cast (by decide +kernel), lambda (by decide +kernel),
    ?_, order.mp (by decide +kernel) _ .first⟩
  exact (type (by decide +kernel)).2.mpr (by decide +kernel)

/-- A lone at sign is reported after the missing name of its annotation. -/
theorem type_attempt_leaves_error :
    (typeDecl? member? (.ofText "@" 0)).1 = none ∧
    (typeDecl? member? (.ofText "@" 0)).2.errors = [⟨.expected (.token .ident), ⟨1, 1⟩⟩] ∧
    (parse "@").errors = [⟨.expected (.token .ident), ⟨1, 1⟩⟩,
      ⟨.expected .typeDeclaration, ⟨0, 1⟩⟩] ∧
    ¬ErrorsInOrder (parse "@").errors := by
  decide +kernel

end Parser
end MethodContracts.Source
