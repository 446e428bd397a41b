import MethodContracts.Proofs.Method.Declarations
import MethodContracts.Proofs.Source.Progress
import MethodContracts.Source.Parse

/-!
# Operators group to the left

The right operand of an operator is read with a higher minimum strength, so an operator of it
binds more strongly; and where only a unary expression may stand there is no operator at all.
So a chain of one operator is a left spine, wherever it stands and whatever errors there are.
-/
namespace MethodContracts.Source

/-! ## Groupings -/

/-- The expressions directly below an expression, in order. -/
def Expr.parts : Expr → List Expr
  | .name _ _ | .number _ _ | .string _ _ | .char _ _ | .bool _ _ | .null _ | .this _
  | .lambda _ | .missing _ => []
  | .call callee arguments _ => callee :: arguments
  | .new _ arguments _ => arguments
  | .field inner _ _ _ | .unary _ inner _ | .instanceOf inner _ _ | .paren inner _
  | .cast _ inner _ | .methodRef inner _ _ => [inner]
  | .index left right _ | .binary _ left right _ | .assign left right _ => [left, right]
  | .conditional condition whenTrue whenFalse _ => [condition, whenTrue, whenFalse]

/-- Right of an operator there is no expression of the same operator. -/
def Expr.GroupsLeft : Expr → Prop
  | .binary op _ right _ => ∀ first second span, right ≠ .binary op first second span
  | _ => True

/-- In the whole expression operators group to the left. -/
inductive Expr.Grouped : Expr → Prop where
  | intro {expr : Expr} (self : expr.GroupsLeft) (parts : ∀ part ∈ expr.parts, Grouped part) :
    Grouped expr

/-- The expressions directly in a statement, in order. -/
def Stmt.exprs : Stmt → List Expr
  | .local _ _ _ value _ | .returns value _ => value.toList
  | .expr value _ | .throws value _ | .ifElse value _ _ _ | .while value _ _ => [value]
  | .assert condition message _ => condition :: message.toList
  | .skipped _ _ | .block _ _ | .empty _ => []

/-- The statements directly below a statement, in order. -/
def Stmt.parts : Stmt → List Stmt
  | .ifElse _ whenTrue whenFalse _ => whenTrue :: whenFalse.toList
  | .while _ body _ => [body]
  | .block statements _ => statements
  | .local _ _ _ _ _ | .expr _ _ | .returns _ _ | .throws _ _ | .assert _ _ _ | .skipped _ _
  | .empty _ => []

inductive Stmt.Grouped : Stmt → Prop where
  | intro {stmt : Stmt} (exprs : ∀ expr ∈ stmt.exprs, expr.Grouped)
    (parts : ∀ part ∈ stmt.parts, Grouped part) : Grouped stmt

/-- A statement with no statement in it groups as its expressions do. -/
theorem Stmt.Grouped.simple {stmt : Stmt} (noParts : stmt.parts = [])
    (exprs : ∀ expr ∈ stmt.exprs, expr.Grouped) : stmt.Grouped :=
  .intro exprs (noParts ▸ List.forall_mem_nil _)

def Block.Grouped (block : Block) : Prop := block.toStmt.Grouped

/-- In the bodies of the member and of those inside it operators group to the left. -/
def Member.Grouped (member : Member) : Prop :=
  ∀ inner, member.Encloses inner → ∀ block ∈ inner.block?, block.Grouped

theorem Member.Grouped.plain {member : Member}
    (noType : ∀ header members, member ≠ .type header members)
    (body : ∀ block ∈ member.block?, block.Grouped) : member.Grouped := by
  intro inner encloses
  cases encloses with
  | self => exact body
  | type => exact absurd rfl (noType _ _)

theorem Member.Grouped.type {header : TypeHeader} {members : List Member}
    (each : ∀ member ∈ members, member.Grouped) : (Member.type header members).Grouped := by
  intro inner encloses
  cases encloses with
  | self => exact fun _ member => by cases member
  | type listed encloses => exact each _ listed inner encloses

/-- What may be read at a form: no operator where a unary expression is wanted, and none that
binds less strongly than it has to. -/
def Form.Allows : Form → Expr → Prop
  | .binary minimum, .binary op _ _ _ => minimum ≤ op.strength
  | .unary, .binary _ _ _ _ => False
  | _, _ => True

/-- What is read at a form. -/
structure Form.Reads (form : Form) (expr : Expr) : Prop where
  grouped : expr.Grouped
  allows : form.Allows expr

namespace Form

variable {expr : Expr}

/-- What is no operator can be read at any form. -/
theorem Reads.of_unary (reads : Form.unary.Reads expr) (form : Form) : form.Reads expr := by
  refine ⟨reads.grouped, ?_⟩
  have noOperator := reads.allows
  cases expr with
  | binary => exact noOperator.elim
  | _ => cases form <;> trivial

/-- An operator whose right operand binds more strongly groups to the left. -/
theorem Reads.binary {op : BinaryOp} {left right : Expr} {minimum : Nat} (span : Span)
    (strong : minimum ≤ op.strength) (first : left.Grouped)
    (second : (Form.binary (op.strength + 1)).Reads right) :
    (Form.binary minimum).Reads (.binary op left right span) := by
  refine ⟨.intro ?_ ?_, strong⟩
  · rintro inner last span rfl
    exact absurd second.allows (Nat.not_succ_le_self _)
  · exact List.forall_mem_cons.mpr ⟨first, List.forall_mem_singleton.mpr second.grouped⟩

end Form

namespace Parser

/-! ## What is yielded -/

/-- From every cursor the parser yields a value with the property. -/
def Yields {α : Type} (holds : α → Prop) (parser : Parser α) : Prop :=
  ∀ c : Cursor, holds (parser c).1

section Yields

variable {α β : Type} {holds : α → Prop}

theorem Yields.pure {value : α} (here : holds value) : Yields holds (Pure.pure value) :=
  fun _ => here

theorem Yields.bind {first : β → Prop} {parser : Parser β} {next : β → Parser α}
    (start : parser.Yields first) (rest : ∀ value, first value → (next value).Yields holds) :
    Yields holds (parser >>= next) := by
  intro c
  exact rest (parser c).1 (start c) (parser c).2

/-- Whatever was read before. -/
theorem Yields.after {parser : Parser β} {next : β → Parser α}
    (rest : ∀ value, (next value).Yields holds) : Yields holds (parser >>= next) := by
  intro c
  exact rest (parser c).1 (parser c).2

theorem Yields.ite {condition : Prop} [Decidable condition] {first second : Parser α}
    (whenTrue : first.Yields holds) (whenFalse : second.Yields holds) :
    Yields holds (if condition then first else second) := by
  split
  · exact whenTrue
  · exact whenFalse

theorem Yields.map {parser : Parser β} {f : β → α}
    (yields : parser.Yields fun value => holds (f value)) : Yields holds (f <$> parser) :=
  fun c => yields c

theorem Yields.mono {weaker : α → Prop} {parser : Parser α} (yields : parser.Yields holds)
    (implies : ∀ value, holds value → weaker value) : parser.Yields weaker :=
  fun c => implies _ (yields c)

theorem Yields.none : Yields (fun found => ∀ value ∈ found, holds value) (Pure.pure none) := by
  apply Yields.pure
  intro value member
  cases member

theorem Yields.some {value : α} (here : holds value) :
    Yields (fun found => ∀ value ∈ found, holds value) (Pure.pure (some value)) := by
  apply Yields.pure
  intro other member
  cases member
  exact here

theorem Yields.some_map {parser : Parser α} (yields : parser.Yields holds) :
    (Option.some <$> parser).Yields fun found => ∀ value ∈ found, holds value := by
  apply Yields.map
  intro c value member
  cases member
  exact yields c

/-- A repetition keeps what each of its steps keeps. -/
theorem Yields.iterate {step : α → Parser (Option α)} {value : α} (start : holds value)
    (keeps : ∀ value, holds value → (step value).Yields fun next => ∀ other ∈ next, holds other) :
    (Parser.iterate step value).Yields holds := by
  apply Yields.after
  intro c
  -- However often it is repeated: how many tokens are left does not matter here.
  generalize c.left = limit
  induction limit generalizing value with
  | zero => exact .pure start
  | succ limit ih =>
    apply Yields.bind
    · exact keeps value start
    intro next found
    cases next with
    | none => exact .pure start
    | some next => exact ih (found next rfl)

/-- What is collected is what the steps yield. -/
theorem Yields.collect {step : Parser (Option (List α))}
    (each : step.Yields fun found => ∀ values ∈ found, ∀ value ∈ values, holds value) :
    (Parser.collect step).Yields fun values => ∀ value ∈ values, holds value := by
  apply Yields.after
  intro c
  generalize c.left = limit
  induction limit with
  | zero => exact .pure (List.forall_mem_nil _)
  | succ limit ih =>
    apply Yields.bind
    · exact each
    intro found here
    cases found with
    | none => exact .pure (List.forall_mem_nil _)
    | some values =>
      apply Yields.bind
      · exact ih
      intro others later
      exact .pure (List.forall_mem_append.mpr ⟨here values rfl, later⟩)

end Yields

/-! ## Expressions -/

section Forms

variable {nested : Form → Parser Expr} (reads : ∀ form, (nested form).Yields form.Reads)

private theorem lambda?_yields :
    (lambda? nested).Yields fun found => ∀ expr ∈ found, Form.unary.Reads expr := by
  apply Yields.after
  intro c
  split
  next => exact .none
  next =>
    have finish (after : Cursor) : Yields (fun found => ∀ expr ∈ found, Form.unary.Reads expr)
        (pure (some (.lambda (after.since c.here)))) :=
      .some ⟨.intro trivial (List.forall_mem_nil _), trivial⟩
    apply Yields.after
    intro _
    apply Yields.after
    intro body
    apply Yields.ite
    · exact .after fun _ => .after finish
    · exact .after fun _ => .after finish

include reads

private theorem argumentStep_yields : (argumentStep nested).Yields fun found =>
    ∀ arguments ∈ found, ∀ argument ∈ arguments, argument.Grouped := by
  apply Yields.after
  intro c
  apply Yields.ite
  · exact .none
  apply Yields.bind
  · exact reads .assignment
  intro argument read
  have finish : Yields (fun found => ∀ arguments ∈ found, ∀ argument ∈ arguments,
      argument.Grouped) (pure (some [argument])) :=
    .some (List.forall_mem_singleton.mpr read.grouped)
  apply Yields.after
  intro after
  apply Yields.ite
  · exact .after fun _ => finish
  · exact finish

private theorem argumentList_yields : (argumentList nested).Yields fun found =>
    ∀ argument ∈ found.1, argument.Grouped := by
  apply Yields.after
  intro opening
  apply Yields.bind
  · exact .collect (argumentStep_yields reads)
  intro arguments grouped
  exact .after fun closing => .pure grouped

private theorem newExpr_yields : (newExpr nested).Yields Form.unary.Reads := by
  apply Yields.after
  intro keyword
  apply Yields.after
  intro type
  have finish (arguments : List Expr) (grouped : ∀ argument ∈ arguments, argument.Grouped) :
      Yields Form.unary.Reads (do
        iterate dimensionStep ()
        skipGroup .openBrace .closeBrace
        let after ← get
        return .new type arguments ⟨keyword.span.start, max after.lastEnd keyword.span.stop⟩) :=
    .after fun _ => .after fun _ => .after fun _ => .pure ⟨.intro trivial grouped, trivial⟩
  apply Yields.after
  intro c
  apply Yields.ite
  · apply Yields.bind
    · exact argumentList_yields reads
    rintro ⟨arguments, stop⟩ grouped
    exact finish arguments grouped
  · exact finish [] (List.forall_mem_nil _)

omit reads in
private theorem wordExpr_yields (token : Token) : Form.unary.Reads (wordExpr token) := by
  unfold wordExpr
  repeat' split
  all_goals exact ⟨.intro trivial (List.forall_mem_nil _), trivial⟩

private theorem primary_yields : (primary nested).Yields Form.unary.Reads := by
  -- Words, literals and types have no parts that could be grouped.
  have leaf {expr : Expr} (noParts : expr.parts = []) (groups : expr.GroupsLeft)
      (allows : Form.unary.Allows expr) : Yields Form.unary.Reads (pure expr) :=
    .pure ⟨.intro groups (noParts ▸ List.forall_mem_nil _), allows⟩
  apply Yields.after
  intro c
  split
  · exact .after fun _ => leaf rfl trivial trivial
  · split
    · apply Yields.ite
      · exact newExpr_yields reads
      · exact .after fun _ => .pure (wordExpr_yields _)
    · exact .after fun _ => leaf rfl trivial trivial
    · exact .after fun _ => leaf rfl trivial trivial
    · exact .after fun _ => leaf rfl trivial trivial
    · apply Yields.after
      intro _
      apply Yields.bind
      · exact reads .assignment
      intro inner read
      have parts := List.forall_mem_singleton.mpr read.grouped
      exact .after fun closing => .pure ⟨.intro trivial parts, trivial⟩
    · apply Yields.after
      intro _
      apply Yields.ite
      · exact leaf rfl trivial trivial
      · exact .after fun _ => leaf rfl trivial trivial

private theorem postfixedStep_yields (expr : Expr) (read : Form.unary.Reads expr) :
    (postfixedStep nested expr).Yields fun next => ∀ other ∈ next, Form.unary.Reads other := by
  -- Each form goes on from an operand that binds as tightly as it may.
  have before := List.forall_mem_singleton.mpr read.grouped
  apply Yields.after
  intro c
  split
  · exact .none
  · split
    · apply Yields.ite
      · exact .after fun _ => .after fun name => .some ⟨.intro trivial before, trivial⟩
      · exact .none
    · apply Yields.bind
      · exact argumentList_yields reads
      rintro ⟨arguments, stop⟩ grouped
      have parts := List.forall_mem_cons.mpr ⟨read.grouped, grouped⟩
      exact .some ⟨.intro trivial parts, trivial⟩
    · apply Yields.after
      intro _
      apply Yields.bind
      · exact reads .assignment
      intro position inside
      have parts := List.forall_mem_cons.mpr
        ⟨read.grouped, List.forall_mem_singleton.mpr inside.grouped⟩
      exact .after fun closing => .some ⟨.intro trivial parts, trivial⟩
    · apply Yields.after
      intro _
      apply Yields.after
      intro name
      exact .after fun after => .some ⟨.intro trivial before, trivial⟩
    · split
      · exact .none
      · exact .after fun _ => .some ⟨.intro trivial before, trivial⟩

private theorem postfixed_yields : (postfixed nested).Yields Form.unary.Reads := by
  apply Yields.bind
  · exact primary_yields reads
  intro first read
  exact .iterate read (postfixedStep_yields reads)

private theorem cast?_yields :
    (cast? nested).Yields fun found => ∀ expr ∈ found, Form.unary.Reads expr := by
  apply Yields.after
  intro before
  apply Yields.after
  intro _
  apply Yields.after
  intro type
  cases type with
  | none => exact .after fun _ => .none
  | some type =>
    -- A lambda and an operand are cast in the same way.
    have finish (operand : Expr) (read : Form.unary.Reads operand) :
        Yields (fun found => ∀ expr ∈ found, Form.unary.Reads expr) (pure (some
          (.cast type operand ⟨before.place.start, max operand.span.stop before.place.stop⟩))) :=
      .some ⟨.intro trivial (List.forall_mem_singleton.mpr read.grouped), trivial⟩
    apply Yields.after
    intro _
    apply Yields.bind
    · exact lambda?_yields
    intro lambda found
    cases lambda with
    | some lambda => exact finish lambda (found lambda rfl)
    | none => exact (reads .unary).bind finish

private theorem signed_yields : (signed nested).Yields Form.unary.Reads := by
  apply Yields.after
  intro c
  split
  · exact postfixed_yields reads
  · apply Yields.after
    intro _
    apply Yields.bind
    · exact reads .unary
    intro operand read
    exact .pure ⟨.intro trivial (List.forall_mem_singleton.mpr read.grouped), trivial⟩

private theorem unary_yields : (unary nested).Yields Form.unary.Reads := by
  apply Yields.after
  intro c
  apply Yields.ite
  · apply Yields.bind
    · exact cast?_yields reads
    intro cast found
    cases cast with
    | none => exact signed_yields reads
    | some cast => exact .pure (found cast rfl)
  · exact signed_yields reads

omit reads in
private theorem instanceOf_yields {operand : Expr} (grouped : operand.Grouped) :
    (instanceOf operand).Yields Form.unary.Reads := by
  apply Yields.after
  intro _
  apply Yields.after
  intro _
  apply Yields.after
  intro type
  have finish : Yields Form.unary.Reads (do
      let after ← get
      return .instanceOf operand type ⟨operand.span.start, max after.lastEnd type.span.stop⟩) :=
    .after fun _ => .pure ⟨.intro trivial (List.forall_mem_singleton.mpr grouped), trivial⟩
  apply Yields.after
  intro c
  apply Yields.ite
  · exact .after fun _ => finish
  · exact finish

/-- An operator is read only with a right operand that binds more strongly. -/
private theorem binaryStep_yields (minimum : Nat) (left : Expr)
    (read : (Form.binary minimum).Reads left) : (binaryStep nested minimum left).Yields fun next =>
      ∀ other ∈ next, (Form.binary minimum).Reads other := by
  apply Yields.after
  intro c
  apply Yields.ite
  -- A type test is no operator, so it may stand left of any operator that follows it.
  · apply Yields.ite
    · exact .none
    apply Yields.bind
    · exact instanceOf_yields read.grouped
    intro test tested
    exact .some (tested.of_unary _)
  · split
    next => exact .none
    next op _ =>
      by_cases weak : op.strength < minimum
      · rw [if_pos weak]
        exact .none
      · rw [if_neg weak]
        apply Yields.after
        intro _
        apply Yields.bind
        · exact reads (.binary (op.strength + 1))
        intro right stronger
        exact .some (.binary _ (Nat.le_of_not_lt weak) read.grouped stronger)

private theorem binary_yields (minimum : Nat) :
    (binary nested minimum).Yields (Form.binary minimum).Reads := by
  apply Yields.bind
  · exact unary_yields reads
  intro first read
  exact .iterate (read.of_unary _) (binaryStep_yields reads minimum)

private theorem conditional_yields : (conditional nested).Yields Form.conditional.Reads := by
  apply Yields.bind
  · exact binary_yields reads 0
  intro condition decides
  apply Yields.after
  intro c
  apply Yields.ite
  · apply Yields.after
    intro _
    apply Yields.bind
    · exact reads .assignment
    intro whenTrue first
    apply Yields.after
    intro _
    apply Yields.bind
    · exact reads .conditional
    intro whenFalse second
    apply Yields.pure
    refine ⟨.intro trivial ?_, trivial⟩
    simpa [Expr.parts] using ⟨decides.grouped, first.grouped, second.grouped⟩
  · exact .pure ⟨decides.grouped, trivial⟩

private theorem assignment_yields : (assignment nested).Yields Form.assignment.Reads := by
  apply Yields.bind
  · exact lambda?_yields
  intro lambda found
  cases lambda with
  | some lambda => exact .pure ((found lambda rfl).of_unary _)
  | none =>
    apply Yields.bind
    · exact conditional_yields reads
    intro target place
    apply Yields.after
    intro c
    apply Yields.ite
    · apply Yields.after
      intro _
      apply Yields.bind
      · exact reads .assignment
      intro value read
      apply Yields.pure
      refine ⟨.intro trivial ?_, trivial⟩
      simpa [Expr.parts] using ⟨place.grouped, read.grouped⟩
    · exact .pure ⟨place.grouped, trivial⟩

private theorem ofForm_yields (form : Form) : (ofForm nested form).Yields form.Reads := by
  cases form with
  | assignment => exact assignment_yields reads
  | conditional => exact conditional_yields reads
  | binary minimum => exact binary_yields reads minimum
  | unary => exact unary_yields reads

end Forms

private theorem exprWithin_yields (depth : Nat) (form : Form) :
    (exprWithin depth form).Yields form.Reads := by
  induction depth generalizing form with
  | zero =>
    -- A reader that may not nest any further yields a placeholder.
    intro c
    have missing : Form.unary.Reads (.missing (.point c.here)) :=
      ⟨.intro trivial (List.forall_mem_nil _), trivial⟩
    exact missing.of_unary form
  | succ depth ih => exact ofForm_yields ih form

private theorem expr_grouped : expr.Yields Expr.Grouped := by
  apply Yields.after
  intro c
  exact (exprWithin_yields _ .assignment).mono fun _ read => read.grouped

/-! ## Statements -/

private theorem someExpr_grouped :
    (some <$> expr).Yields fun found => ∀ value ∈ found.toList, value.Grouped :=
  .map (expr_grouped.mono fun _ grouped => List.forall_mem_singleton.mpr grouped)

private theorem parenthesized_grouped : parenthesized.Yields Expr.Grouped := by
  apply Yields.after
  intro _
  apply Yields.bind
  · exact expr_grouped
  intro condition grouped
  exact .after fun _ => .pure grouped

private theorem returnStmt_grouped : returnStmt.Yields Stmt.Grouped := by
  apply Yields.after
  intro before
  apply Yields.after
  intro _
  have finish (value : Option Expr) (grouped : ∀ expr ∈ value.toList, expr.Grouped) :
      Yields Stmt.Grouped (do
        let closing ← expect .semicolon
        return .returns value ⟨before.here, closing.span.stop⟩) :=
    .after fun _ => .pure (.simple rfl grouped)
  apply Yields.after
  intro c
  apply Yields.ite
  · exact finish none (List.forall_mem_nil _)
  · exact someExpr_grouped.bind finish

private theorem throwStmt_grouped : throwStmt.Yields Stmt.Grouped := by
  apply Yields.after
  intro before
  apply Yields.after
  intro _
  apply Yields.bind
  · exact expr_grouped
  intro value grouped
  exact .after fun closing => .pure (.simple rfl (List.forall_mem_singleton.mpr grouped))

private theorem assertStmt_grouped : assertStmt.Yields Stmt.Grouped := by
  apply Yields.after
  intro before
  apply Yields.after
  intro _
  apply Yields.bind
  · exact expr_grouped
  intro condition decides
  have finish (message : Option Expr) (grouped : ∀ expr ∈ message.toList, expr.Grouped) :
      Yields Stmt.Grouped (do
        let closing ← expect .semicolon
        return .assert condition message ⟨before.here, closing.span.stop⟩) :=
    .after fun _ => .pure (.simple rfl (List.forall_mem_cons.mpr ⟨decides, grouped⟩))
  apply Yields.after
  intro c
  apply Yields.ite
  · exact .after fun _ => someExpr_grouped.bind finish
  · exact finish none (List.forall_mem_nil _)

private theorem exprStmt_grouped : exprStmt.Yields Stmt.Grouped := by
  apply Yields.after
  intro before
  apply Yields.bind
  · exact expr_grouped
  intro value grouped
  exact .after fun closing => .pure (.simple rfl (List.forall_mem_singleton.mpr grouped))

private theorem localStmt?_grouped :
    localStmt?.Yields fun found => ∀ stmt ∈ found, stmt.Grouped := by
  apply Yields.after
  intro before
  apply Yields.after
  intro head
  cases head with
  | none => exact .after fun _ => .none
  | some found =>
    have finish (init : Option Expr) (grouped : ∀ expr ∈ init.toList, expr.Grouped) :
        Yields (fun found => ∀ stmt ∈ found, Stmt.Grouped stmt) (do
          let closing ← expect .semicolon
          return some (.local found.1 found.2.text found.2.span init
            ⟨before.here, closing.span.stop⟩)) :=
      .after fun _ => .some (.simple rfl grouped)
    apply Yields.after
    intro c
    apply Yields.ite
    · exact .after fun _ => someExpr_grouped.bind finish
    · exact finish none (List.forall_mem_nil _)

section Nesting

variable {nested : Parser (Option Stmt)}
  (grouped : nested.Yields fun found => ∀ stmt ∈ found, stmt.Grouped)
include grouped

private theorem blockStep_grouped : (blockStep nested).Yields fun found =>
    ∀ stmts ∈ found, ∀ stmt ∈ stmts, stmt.Grouped := by
  apply Yields.after
  intro c
  apply Yields.ite
  · exact .none
  apply Yields.bind
  · exact grouped
  intro found each
  have finish : Yields (fun found => ∀ stmts ∈ found, ∀ stmt ∈ stmts, Stmt.Grouped stmt)
      (pure (some found.toList)) :=
    .some fun stmt member => each stmt (Option.mem_toList.mp member)
  apply Yields.after
  intro after
  apply Yields.ite
  · exact .after fun _ => finish
  · exact finish

private theorem blockOf_grouped : (blockOf nested).Yields Block.Grouped := by
  apply Yields.after
  intro opening
  apply Yields.bind
  · exact .collect (blockStep_grouped grouped)
  intro statements each
  exact .after fun closing => .pure (.intro (List.forall_mem_nil _) each)

private theorem governed_grouped : (governed nested).Yields Stmt.Grouped := by
  apply Yields.after
  intro before
  apply Yields.bind
  · exact grouped
  intro found each
  cases found with
  | none => exact .after fun _ => .pure (.simple rfl (List.forall_mem_nil _))
  | some stmt => exact .pure (each stmt rfl)

private theorem ifStmt_grouped : (ifStmt nested).Yields Stmt.Grouped := by
  apply Yields.after
  intro before
  apply Yields.after
  intro _
  apply Yields.bind
  · exact parenthesized_grouped
  intro condition decides
  have exprs := List.forall_mem_singleton.mpr decides
  apply Yields.bind
  · exact governed_grouped grouped
  intro whenTrue first
  apply Yields.after
  intro c
  apply Yields.ite
  · apply Yields.after
    intro _
    apply Yields.bind
    · exact governed_grouped grouped
    intro whenFalse second
    have parts := List.forall_mem_cons.mpr ⟨first, List.forall_mem_singleton.mpr second⟩
    exact .after fun after => .pure (.intro exprs parts)
  · exact .after fun after => .pure (.intro exprs (List.forall_mem_singleton.mpr first))

private theorem whileStmt_grouped : (whileStmt nested).Yields Stmt.Grouped := by
  apply Yields.after
  intro before
  apply Yields.after
  intro _
  apply Yields.bind
  · exact parenthesized_grouped
  intro condition decides
  have exprs := List.forall_mem_singleton.mpr decides
  apply Yields.bind
  · exact governed_grouped grouped
  intro body repeated
  exact .after fun after => .pure (.intro exprs (List.forall_mem_singleton.mpr repeated))

omit grouped in
private theorem outlinedStmt_grouped (keyword : String) :
    (outlinedStmt nested keyword).Yields Stmt.Grouped := by
  apply Yields.after
  intro before
  apply Yields.after
  intro _
  apply Yields.after
  intro _
  exact .after fun after => .pure (.simple rfl (List.forall_mem_nil _))

private theorem stmtOf_grouped :
    (stmtOf nested).Yields fun found => ∀ stmt ∈ found, stmt.Grouped := by
  apply Yields.after
  intro c
  apply Yields.ite
  · exact .none
  apply Yields.ite
  · exact .after fun _ => .some (.simple rfl (List.forall_mem_nil _))
  apply Yields.ite
  · exact (blockOf_grouped grouped).bind fun block here => .some here
  apply Yields.ite
  · exact returnStmt_grouped.some_map
  apply Yields.ite
  · exact throwStmt_grouped.some_map
  apply Yields.ite
  · exact (ifStmt_grouped grouped).some_map
  apply Yields.ite
  · exact assertStmt_grouped.some_map
  apply Yields.ite
  · exact (whileStmt_grouped grouped).some_map
  apply Yields.ite
  · exact (outlinedStmt_grouped _).some_map
  apply Yields.bind
  · exact localStmt?_grouped
  intro found here
  cases found with
  | none => exact exprStmt_grouped.some_map
  | some stmt => exact .some (here stmt rfl)

end Nesting

private theorem stmtWithin_grouped (depth : Nat) :
    (stmtWithin depth).Yields fun found => ∀ stmt ∈ found, stmt.Grouped := by
  induction depth with
  | zero => exact .none
  | succ depth ih => exact stmtOf_grouped ih

private theorem block_grouped : block.Yields Block.Grouped := by
  apply blockOf_grouped
  apply Yields.after
  intro c
  exact stmtWithin_grouped _

/-! ## Declarations -/

private theorem methodBody_grouped :
    methodBody.Yields fun found => ∀ block ∈ found, block.Grouped := by
  apply Yields.after
  intro c
  apply Yields.ite
  · exact block_grouped.some_map
  · exact .after fun _ => .none

private theorem fieldRest_grouped (start : Nat) (type : TypeRef) (name : Token) :
    (fieldRest start type name).Yields Member.Grouped := by
  apply Yields.after
  intro _
  exact .after fun closing => .pure (.plain nofun nofun)

private theorem methodRest_grouped (start : Nat) (notes : List Annotation) (type : TypeRef)
    (name : Token) : (methodRest start notes type name).Yields Member.Grouped := by
  apply Yields.after
  intro params
  apply Yields.after
  intro _
  apply Yields.after
  intro _
  apply Yields.bind
  · exact methodBody_grouped
  intro body grouped
  exact .after fun after => .pure (.plain nofun grouped)

private theorem constructorRest_grouped (start : Nat) :
    (constructorRest start).Yields Member.Grouped := by
  apply Yields.after
  intro name
  apply Yields.after
  intro params
  apply Yields.after
  intro _
  apply Yields.bind
  · exact block_grouped
  intro body grouped
  exact .pure (.plain nofun fun _ isBody => Option.some.inj isBody ▸ grouped)

private theorem initializerRest_grouped (start : Nat) (isStatic : Bool) :
    (initializerRest start isStatic).Yields Member.Grouped := by
  apply Yields.bind
  · exact block_grouped
  intro body grouped
  exact .pure (.plain nofun fun _ isBody => Option.some.inj isBody ▸ grouped)

private theorem typedMember_grouped (start : Nat) (notes : List Annotation) :
    (typedMember start notes).Yields fun found => ∀ member ∈ found, member.Grouped := by
  apply Yields.after
  intro type
  cases type with
  | none => exact .none
  | some type =>
    apply Yields.after
    intro name
    apply Yields.after
    intro c
    apply Yields.ite
    · exact (methodRest_grouped start notes type name).some_map
    · exact (fieldRest_grouped start type name).some_map

private theorem plainMember_grouped (start : Nat) (notes : List Annotation) (enclosing : String) :
    (plainMember start notes enclosing).Yields fun found => ∀ member ∈ found, member.Grouped := by
  apply Yields.after
  intro c
  apply Yields.ite
  · exact (constructorRest_grouped start).some_map
  · exact typedMember_grouped start notes

section Nesting

variable {nested : String → Parser (Option Member)}
  (grouped : ∀ name, (nested name).Yields fun found => ∀ member ∈ found, member.Grouped)
include grouped

private theorem memberStep_grouped (typeName : String) :
    (memberStep nested typeName).Yields fun found =>
    ∀ members ∈ found, ∀ member ∈ members, member.Grouped := by
  apply Yields.after
  intro c
  apply Yields.ite
  · exact .none
  apply Yields.bind
  · exact grouped typeName
  intro found each
  have finish : Yields (fun found => ∀ members ∈ found, ∀ member ∈ members, Member.Grouped member)
      (pure (some found.toList)) :=
    .some fun member listed => each member (Option.mem_toList.mp listed)
  apply Yields.after
  intro after
  apply Yields.ite
  · exact .after fun _ => finish
  · exact finish

private theorem typeBody_grouped (typeName : String) (isEnum : Bool) :
    (typeBody nested typeName isEnum).Yields fun found =>
      ∀ member ∈ found.1, member.Grouped := by
  apply Yields.after
  intro _
  apply Yields.after
  intro opening
  have finish (_ : Unit) : Yields (fun found => ∀ member ∈ found.1, Member.Grouped member) (do
      let members ← collect (memberStep nested typeName)
      let closing ← expect .closeBrace
      return (members, (⟨opening.span.start, closing.span.stop⟩ : Span))) := by
    apply Yields.bind
    · exact .collect (memberStep_grouped grouped typeName)
    intro members each
    exact .after fun closing => .pure each
  apply Yields.ite
  · exact .after finish
  · exact finish ()

private theorem typeDecl?_grouped : (typeDecl? nested).Yields fun found =>
    ∀ decl ∈ found, ∀ member ∈ decl.members, member.Grouped := by
  apply Yields.after
  intro before
  apply Yields.after
  intro _
  apply Yields.after
  intro kind
  cases kind with
  | none => exact .after fun _ => .none
  | some kind =>
    apply Yields.after
    intro name
    apply Yields.bind
    · exact typeBody_grouped grouped _ _
    rintro ⟨members, bodySpan⟩ each
    exact .some each

private theorem memberOf_grouped (enclosing : String) :
    (memberOf nested enclosing).Yields fun found => ∀ member ∈ found, member.Grouped := by
  apply Yields.after
  intro start
  apply Yields.ite
  · exact .none
  apply Yields.after
  intro notes
  apply Yields.after
  intro _
  apply Yields.after
  intro c
  apply Yields.ite
  · exact .after fun _ => (initializerRest_grouped _ _).some_map
  apply Yields.ite
  · exact (initializerRest_grouped _ _).some_map
  apply Yields.ite
  · apply Yields.bind
    · exact typeDecl?_grouped grouped
    intro found each
    cases found with
    | none => exact plainMember_grouped _ _ _
    | some decl => exact .some (.type (each decl rfl))
  · exact plainMember_grouped _ _ _

end Nesting

private theorem memberWithin_grouped (depth : Nat) (enclosing : String) :
    (memberWithin depth enclosing).Yields fun found => ∀ member ∈ found, member.Grouped := by
  induction depth generalizing enclosing with
  | zero => exact .none
  | succ depth ih => exact memberOf_grouped ih enclosing

private theorem member?_grouped (enclosing : String) :
    (member? enclosing).Yields fun found => ∀ member ∈ found, member.Grouped := by
  apply Yields.after
  intro c
  exact memberWithin_grouped _ enclosing

private theorem unitStep_grouped : unitStep.Yields fun found => ∀ decls ∈ found, ∀ decl ∈ decls,
    ∀ member ∈ decl.members, member.Grouped := by
  apply Yields.after
  intro c
  apply Yields.ite
  · exact .none
  apply Yields.bind
  · exact typeDecl?_grouped member?_grouped
  intro found each
  cases found with
  | none => exact .after fun _ => .after fun _ => .some (List.forall_mem_nil _)
  | some decl => exact .some (List.forall_mem_singleton.mpr (each decl rfl))

private theorem compilationUnit_grouped : compilationUnit.Yields fun unit =>
    ∀ decl ∈ unit.types, ∀ member ∈ decl.members, member.Grouped := by
  apply Yields.after
  intro c
  apply Yields.after
  intro _
  apply Yields.bind
  · exact .collect unitStep_grouped
  intro types each
  exact .pure each

end Parser

/-- In the block of every member of a unit operators group to the left. -/
theorem parse_grouped (text : String) {member : Member} {block : Block}
    (has : (parse text).value.HasMember member) (body : member.block? = some block) :
    block.Grouped := by
  obtain ⟨decl, isType, outer, listed, encloses⟩ := has
  exact Parser.compilationUnit_grouped _ decl isType outer listed member encloses block body

theorem parseMethod_grouped (text : String) {decl : MethodDecl} {block : Block}
    (read : (parseMethod text).value = some decl) (body : decl.body = some block) :
    block.Grouped := by
  -- A single method is read as a member of a type without a name.
  have grouped := Parser.member?_grouped "" (.ofText text 0)
  unfold parseMethod at read
  generalize Parser.member? "" (.ofText text 0) = run at grouped read
  obtain ⟨found, c⟩ := run
  dsimp only at grouped read
  split at read
  next other =>
    cases read
    exact grouped _ rfl _ (.self _) block body
  next => cases read

theorem parseBlock_grouped (text : String) (offset : Nat) :
    (parseBlock text offset).value.Grouped :=
  Parser.block_grouped _

end MethodContracts.Source
