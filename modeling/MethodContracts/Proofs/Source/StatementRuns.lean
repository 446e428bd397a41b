import MethodContracts.Proofs.Source.ExpressionRuns

/-!
# Statements in two runs

A statement is tried as the declaration of a local variable first. Both runs agree on whether
it is one: at the end of the tokens it is not, whatever stands behind them.
-/
namespace MethodContracts.Source
namespace Parser

open Cursor Source.Frame

variable {frame : Frame} {c c' : Cursor}

theorem expectAs_atEnd (atEnd : c.rest = []) (kind : TokenKind) (wanted : Wanted) :
    (expectAs kind wanted c).2 = c.report wanted := by
  unfold expectAs
  rw [atEnd]

theorem expectAs_notices (alike : frame.Alike c c') (kind : TokenKind) (wanted : Wanted) :
    frame.Notices (expectAs kind wanted) (expectAs kind wanted) c c' (Token.moved frame.move) := by
  refine Follows.inside (expectAs_moves kind wanted c) (fun past => ?_) fun inside =>
    expectAs_inside alike inside kind wanted
  rw [expectAs_atEnd past.2]
  exact ⟨past.later (c.before_report wanted), c.errors_report wanted⟩

theorem expect_notices (alike : frame.Alike c c') (kind : TokenKind) :
    frame.Notices (expect kind) (expect kind) c c' (Token.moved frame.move) :=
  expectAs_notices alike kind (.token kind)

private theorem parenthesized_agrees (alike : frame.Alike c c') :
    frame.Agrees parenthesized parenthesized c c' (Expr.moved frame.move) := by
  refine Agrees.bind (expect_agrees alike .openParen).discard fun _ c₁ c₁' _ alike₁ => ?_
  refine (expr_agrees alike₁).bind fun condition c₂ c₂' _ alike₂ => ?_
  exact Agrees.bind (expect_agrees alike₂ .closeParen).discard
    fun _ c₃ c₃' _ alike₃ => .pure alike₃ rfl

private theorem returnStmt_agrees (alike : frame.Alike c c') :
    frame.Agrees returnStmt returnStmt c c' (Stmt.moved frame.move) := by
  refine .inside (returnStmt_moves c) fun inside => .get ?_
  rw [alike.here inside]
  refine (advance_agrees alike).bind fun _ c₁ c₁' _ alike₁ => .get ?_
  refine .ite (alike₁.atKind nofun) (fun _ => .pure_bind ?_) fun _ => ?_
  · exact (expect_agrees alike₁ .semicolon).bind fun closing c₂ c₂' _ alike₂ => .pure alike₂ rfl
  · refine Agrees.bind ((expr_agrees alike₁).map (h := Option.map (Expr.moved frame.move))
      fun _ => rfl) fun value c₂ c₂' _ alike₂ => ?_
    exact (expect_agrees alike₂ .semicolon).bind fun closing c₃ c₃' _ alike₃ => .pure alike₃ rfl

private theorem throwStmt_agrees (alike : frame.Alike c c') :
    frame.Agrees throwStmt throwStmt c c' (Stmt.moved frame.move) := by
  refine .inside (throwStmt_moves c) fun inside => .get ?_
  rw [alike.here inside]
  refine (advance_agrees alike).bind fun _ c₁ c₁' _ alike₁ => ?_
  refine (expr_agrees alike₁).bind fun value c₂ c₂' _ alike₂ => ?_
  exact (expect_agrees alike₂ .semicolon).bind fun closing c₃ c₃' _ alike₃ => .pure alike₃ rfl

private theorem assertStmt_agrees (alike : frame.Alike c c') :
    frame.Agrees assertStmt assertStmt c c' (Stmt.moved frame.move) := by
  refine .inside (assertStmt_moves c) fun inside => .get ?_
  rw [alike.here inside]
  refine (advance_agrees alike).bind fun _ c₁ c₁' _ alike₁ => ?_
  refine (expr_agrees alike₁).bind fun condition c₂ c₂' _ alike₂ => .get ?_
  refine .ite (alike₂.atKind nofun) (fun _ => ?_) fun _ => .pure_bind ?_
  · refine (advance_agrees alike₂).bind fun _ c₃ c₃' _ alike₃ => ?_
    refine Agrees.bind ((expr_agrees alike₃).map (h := Option.map (Expr.moved frame.move))
      fun _ => rfl) fun message c₄ c₄' _ alike₄ => ?_
    exact (expect_agrees alike₄ .semicolon).bind fun closing c₅ c₅' _ alike₅ => .pure alike₅ rfl
  · exact (expect_agrees alike₂ .semicolon).bind fun closing c₃ c₃' _ alike₃ => .pure alike₃ rfl

private theorem exprStmt_agrees (alike : frame.Alike c c') :
    frame.Agrees exprStmt exprStmt c c' (Stmt.moved frame.move) := by
  refine .inside (exprStmt_moves c) fun inside => .get ?_
  rw [alike.here inside]
  refine (expr_agrees alike).bind fun value c₁ c₁' _ alike₁ => ?_
  refine (expect_agrees alike₁ .semicolon).bind fun closing c₂ c₂' _ alike₂ => .pure alike₂ ?_
  simp only [Stmt.moved, Expr.span_moved, Token.moved, Span.moved, frame.keeps.map_max]

/-! ## Local variables -/

private theorem localHead?_same (alike : frame.Alike c c') :
    (localHead? c').1 =
        (localHead? c).1.map (Prod.map (TypeRef.moved frame.move) (Token.moved frame.move)) ∧
      ((localHead? c).1 ≠ none → frame.Alike (localHead? c).2 (localHead? c').2) := by
  have read := ((variableModifiers_outruns alike).bind
    (fun _ c₁ c₁' _ alike₁ => typeRef?_outruns alike₁) fun _ => typeRef?_moves).after
  simp only [run_bind] at read
  simp only [localHead?, run_bind]
  generalize typeRef? (variableModifiers c).2 = found at read ⊢
  generalize typeRef? (variableModifiers c').2 = found' at read ⊢
  obtain ⟨type, c₁⟩ := found
  obtain ⟨type', c₁'⟩ := found'
  rcases read with ⟨rfl, alike₁⟩ | ⟨past, behind⟩
  · cases type with
    | none => exact ⟨rfl, fun taken => absurd rfl taken⟩
    | some type =>
      refine Follows.agreed <| .get <| .ite (alike₁.atKind nofun) (fun atWord => ?_)
        fun _ => .pure alike₁ rfl
      have inside : frame.Inside c₁ := .inr (rest_ne_nil atWord)
      have named : frame.Follows (fun _ _ => False) (expect .ident) (expect .ident) c₁ c₁'
          (Token.moved frame.move) := expectAs_inside alike₁ inside .ident (.token .ident)
      refine named.bind_at (fun c₂' alike₂ => .get ?_) id
      exact .ite (congrArg₂ or (alike₂.atKind nofun) (alike₂.atKind nofun))
        (fun _ => .pure alike₂ rfl) fun _ => .pure alike₂ rfl
  · -- At the end of the tokens no name stands behind the type, in either run.
    have noName : c₁.atKind .ident = false := atKind_atEnd past.2 _
    have noName' : c₁'.atKind .ident = false := atKind_behind behind nofun
    cases type <;> cases type' <;> simp only [run_bind, run_get, noName, noName', run_pure] <;>
      exact ⟨rfl, fun taken => absurd rfl taken⟩

private theorem localStmt?_agrees (alike : frame.Alike c c') (inside : frame.Inside c) :
    frame.Agrees localStmt? localStmt? c c' (Option.map (Stmt.moved frame.move)) := by
  obtain ⟨same, alike₁⟩ := localHead?_same alike
  refine ⟨localStmt?_moves c, ?_⟩
  simp only [localStmt?, run_bind, run_get, same]
  cases known : (localHead? c).1 with
  -- Where no declaration starts the reader has gone back, and the two cursors are as before.
  | none => exact .inl ⟨rfl, alike⟩
  | some head =>
    have alike₁ := alike₁ (by rw [known]; exact Option.some_ne_none head)
    -- The statement ends alike with and without an initial value.
    have finish (init : Option Expr) {c₂ c₂' : Cursor} (alike₂ : frame.Alike c₂ c₂') :
        frame.Agrees
          (do
            let closing ← expect .semicolon
            return some (Stmt.local head.1 head.2.text head.2.span init
              ⟨c.here, closing.span.stop⟩))
          (do
            let closing ← expect .semicolon
            return some (Stmt.local (head.1.moved frame.move) head.2.text
              (head.2.span.moved frame.move) (init.map (Expr.moved frame.move))
              ⟨c'.here, closing.span.stop⟩))
          c₂ c₂' (Option.map (Stmt.moved frame.move)) := by
      rw [alike.here inside]
      exact (expect_agrees alike₂ .semicolon).bind fun closing c₃ c₃' _ alike₃ => .pure alike₃ rfl
    refine Follows.after (Agrees.get ?_)
    refine .ite (alike₁.atKind (by decide)) (fun _ => ?_) fun _ => .pure_bind (finish none alike₁)
    refine (advance_agrees alike₁).bind fun _ c₂ c₂' _ alike₂ => ?_
    exact Agrees.bind ((expr_agrees alike₂).map (h := Option.map (Expr.moved frame.move))
      fun _ => rfl) fun init c₃ c₃' _ alike₃ => finish init alike₃

/-! ## Statements over a reader of nested statements -/

section Nesting

variable {nested nested' : Parser (Option Stmt)} {bound : Nat}
  (nests : Agreeing frame bound (Option.map (Stmt.moved frame.move))
    (fun _ : Unit => nested) fun _ : Unit => nested')
include nests

private theorem blockStep_agrees (alike : frame.Alike c c') (room : c.left < bound) :
    frame.Agrees (blockStep nested) (blockStep nested') c c'
      (Option.map (List.map (Stmt.moved frame.move))) := by
  refine .inside (blockStep_moves (nests.moves ()) c) fun inside => .get <| .ite
    (congrArg₂ or (alike.atEnd inside) (alike.atKind_inside inside _))
    (fun _ => .pure alike rfl) fun _ => ?_
  refine (nests.agrees () c c' alike room).bind fun statement c₁ c₁' _ alike₁ => .get ?_
  have same : (statement.map (Stmt.moved frame.move)).toList =
      statement.toList.map (Stmt.moved frame.move) := by
    cases statement <;> rfl
  rw [same]
  refine .ite (alike.left_beq alike₁) (fun _ => ?_) fun _ => .pure alike₁ rfl
  exact (advance_agrees alike₁).bind fun _ c₂ c₂' _ alike₂ => .pure alike₂ rfl

private theorem blockOf_notices (alike : frame.Alike c c')
    (room : (expect .openBrace c).2.left < bound) :
    frame.Notices (blockOf nested) (blockOf nested') c c' (Block.moved frame.move) := by
  refine (expect_notices alike .openBrace).bind_at fun c₁' alike₁ => ?_
  -- The statements agree as long as text is left; at its end the missing brace is reported.
  refine Notices.after (Agrees.collect (blockStep_winds (nests.moves ()))
    (blockStep_winds (nests.moves' ())) (blockStep_moves (nests.moves' ())) alike₁
    fun c₂ c₂' before₂ alike₂ =>
      blockStep_agrees nests alike₂ (Nat.lt_of_le_of_lt before₂.left_le room))
    (fun statements c₂ c₂' _ alike₂ => ?_) fun statements c₂ past => ?_
  · refine (expect_notices alike₂ .closeBrace).bind fun closing c₃ c₃' _ alike₃ =>
      .pure alike₃ ?_
    simp only [Block.moved, Token.moved, Span.moved, frame.keeps.map_max]
  · have reported : (expect .closeBrace c₂).2 = c₂.report (.token .closeBrace) :=
      expectAs_atEnd past.2 _ _
    exact (congrArg Cursor.errors reported).trans_ne (c₂.errors_report _)

private theorem governed_agrees (alike : frame.Alike c c') (room : c.left < bound) :
    frame.Agrees (governed nested) (governed nested') c c' (Stmt.moved frame.move) := by
  refine .inside (governed_moves (nests.moves ()) c) fun inside => .get ?_
  rw [alike.here inside]
  refine (nests.agrees () c c' alike room).bind fun statement c₁ c₁' _ alike₁ => ?_
  cases statement with
  | some statement => exact .pure alike₁ rfl
  | none =>
    exact (report_outruns alike₁ .statement).agrees.bind fun _ c₂ c₂' _ alike₂ =>
      .pure alike₂ rfl

private theorem ifStmt_agrees (alike : frame.Alike c c') (nonempty : c.rest ≠ [])
    (room : c.left ≤ bound) :
    frame.Agrees (ifStmt nested) (ifStmt nested') c c' (Stmt.moved frame.move) := by
  refine .get ?_
  rw [alike.here (.inr nonempty)]
  refine Agrees.advance alike nonempty fun fewer alike₁ => ?_
  have room₁ := Nat.lt_of_lt_of_le fewer room
  refine (parenthesized_agrees alike₁).bind fun condition c₂ c₂' before₂ alike₂ => ?_
  have room₂ := Nat.lt_of_le_of_lt before₂.left_le room₁
  refine (governed_agrees nests alike₂ room₂).bind fun whenTrue c₃ c₃' before₃ alike₃ => .get ?_
  refine .ite (alike₃.atWord _) (fun atElse => ?_) fun _ => .get (.pure alike₃ ?_)
  · refine (advance_agrees alike₃).bind fun _ c₄ c₄' before₄ alike₄ => ?_
    have room₄ := Nat.lt_of_le_of_lt (before₃.trans before₄).left_le room₂
    refine (governed_agrees nests alike₄ room₄).bind fun whenFalse c₅ c₅' _ alike₅ =>
      .get (.pure alike₅ ?_)
    rw [alike₅.since]
    rfl
  · rw [alike₃.since]
    rfl

private theorem whileStmt_agrees (alike : frame.Alike c c') (nonempty : c.rest ≠ [])
    (room : c.left ≤ bound) :
    frame.Agrees (whileStmt nested) (whileStmt nested') c c' (Stmt.moved frame.move) := by
  refine .get ?_
  rw [alike.here (.inr nonempty)]
  refine Agrees.advance alike nonempty fun fewer alike₁ => ?_
  have room₁ := Nat.lt_of_lt_of_le fewer room
  refine (parenthesized_agrees alike₁).bind fun condition c₂ c₂' before₂ alike₂ => ?_
  have room₂ := Nat.lt_of_le_of_lt before₂.left_le room₁
  refine (governed_agrees nests alike₂ room₂).bind fun body c₃ c₃' _ alike₃ =>
    .get (.pure alike₃ ?_)
  rw [alike₃.since]
  rfl

omit nests in
theorem skipCondition_agrees (alike : frame.Alike c c') :
    frame.Agrees (skipGroup .openParen .closeParen) (skipGroup .openParen .closeParen) c c' id :=
  skipGroup_agrees alike .openParen .closeParen nofun

omit nests in
theorem skipBody_agrees (alike : frame.Alike c c') :
    frame.Agrees (skipGroup .openBrace .closeBrace) (skipGroup .openBrace .closeBrace) c c' id :=
  skipGroup_agrees alike .openBrace .closeBrace nofun

omit nests in
private theorem catchStep_agrees (alike : frame.Alike c c') (value : Unit) :
    frame.Agrees (catchStep value) (catchStep value) c c' (Option.map id) := by
  refine .get <| .ite (alike.atWord _) (fun _ => ?_) fun _ => .pure alike rfl
  refine (advance_agrees alike).bind fun _ c₁ c₁' _ alike₁ => ?_
  refine (skipCondition_agrees alike₁).bind fun _ c₂ c₂' _ alike₂ => ?_
  exact (skipBody_agrees alike₂).bind fun _ c₃ c₃' _ alike₃ => .pure alike₃ rfl

private theorem skipOutlined_agrees (alike : frame.Alike c c') (room : c.left < bound)
    (keyword : String) :
    frame.Agrees (skipOutlined nested keyword) (skipOutlined nested' keyword) c c' id := by
  have governs {d d' : Cursor} (alike : frame.Alike d d') (before : c.Before d) :
      frame.Agrees (discard (governed nested)) (discard (governed nested')) d d' id :=
    (governed_agrees nests alike (Nat.lt_of_le_of_lt before.left_le room)).discard
  have ends {d d' : Cursor} (alike : frame.Alike d d') :
      frame.Agrees (discard (expect .semicolon)) (discard (expect .semicolon)) d d' id :=
    (expect_agrees alike .semicolon).discard
  -- One branch for each keyword in the order of the test; the last one has no parts of its own.
  refine .branch (fun _ => ?_) fun _ => .branch (fun _ => ?_) fun _ => .branch (fun _ => ?_)
    fun _ => .branch (fun _ => ?_) fun _ => ?_
  · exact (skipCondition_agrees alike).bind fun _ c₁ c₁' before₁ alike₁ => governs alike₁ before₁
  · exact (skipCondition_agrees alike).bind fun _ c₁ c₁' _ alike₁ => skipBody_agrees alike₁
  · refine (governs alike (.refl c)).bind fun _ c₁ c₁' _ alike₁ => .get <| .ite (alike₁.atWord _)
      (fun _ => ?_) fun _ => ends alike₁
    refine (advance_agrees alike₁).bind fun _ c₂ c₂' _ alike₂ => ?_
    exact (skipCondition_agrees alike₂).bind fun _ c₃ c₃' _ alike₃ => ends alike₃
  · refine (skipCondition_agrees alike).bind fun _ c₁ c₁' _ alike₁ => ?_
    refine (skipBody_agrees alike₁).bind fun _ c₂ c₂' _ alike₂ => ?_
    refine (Agrees.iterate (g := id) catchStep_winds catchStep_winds catchStep_moves alike₂
      (fun value _ _ _ alike => catchStep_agrees alike value) ()).bind
      fun _ c₃ c₃' _ alike₃ => .get <| .ite (alike₃.atWord _) (fun _ => ?_)
        fun _ => .pure alike₃ rfl
    exact (advance_agrees alike₃).bind fun _ c₄ c₄' _ alike₄ => skipBody_agrees alike₄
  · refine (skipWhile_agrees alike fun d d' alike inside => ?_).bind
      fun _ c₁ c₁' _ alike₁ => ends alike₁
    rw [alike.atKind_inside inside, alike.atKind_inside inside]

private theorem outlinedStmt_agrees (alike : frame.Alike c c') (nonempty : c.rest ≠ [])
    (room : c.left ≤ bound) (keyword : String) :
    frame.Agrees (outlinedStmt nested keyword) (outlinedStmt nested' keyword) c c'
      (Stmt.moved frame.move) := by
  refine .get ?_
  rw [alike.here (.inr nonempty)]
  refine Agrees.advance alike nonempty fun fewer alike₁ => ?_
  refine (skipOutlined_agrees nests alike₁ (Nat.lt_of_lt_of_le fewer room) keyword).bind
    fun _ c₂ c₂' _ alike₂ => .get (.pure alike₂ ?_)
  rw [alike₂.since]
  rfl

theorem stmtOf_agrees (alike : frame.Alike c c') (room : c.left ≤ bound) :
    frame.Agrees (stmtOf nested) (stmtOf nested') c c' (Option.map (Stmt.moved frame.move)) := by
  refine .inside (stmtOf_moves (nests.moves ()) c) fun inside => .get ?_
  refine .ite (alike.atEnd inside) (fun _ => .pure alike rfl) fun notAtEnd => ?_
  have nonempty := rest_ne_nil_of_not_atEnd notAtEnd
  refine .ite (alike.atKind nofun) (fun _ => ?_) fun _ => .ite (alike.atKind nofun)
    (fun atOpening => ?_) fun _ => ?_
  · rw [alike.place inside]
    exact (advance_agrees alike).bind fun _ c₁ c₁' _ alike₁ => .pure alike₁ rfl
  · have fewer := Nat.lt_of_lt_of_le (expect_atKind_reads atOpening) room
    refine (blockOf_notices nests alike fewer).agrees.bind fun block c₁ c₁' _ alike₁ =>
      .pure alike₁ ?_
    rw [Block.toStmt_moved]
    rfl
  · -- The two readers take the same branch, as the keyword is the same for both.
    simp only [alike.word]
    refine .branch (fun _ => (returnStmt_agrees alike).map fun _ => rfl) fun _ => ?_
    refine .branch (fun _ => (throwStmt_agrees alike).map fun _ => rfl) fun _ => ?_
    refine .branch (fun _ => (ifStmt_agrees nests alike nonempty room).map fun _ => rfl)
      fun _ => ?_
    refine .branch (fun _ => (assertStmt_agrees alike).map fun _ => rfl) fun _ => ?_
    refine .branch (fun _ => (whileStmt_agrees nests alike nonempty room).map fun _ => rfl)
      fun _ => ?_
    refine .branch (fun _ => (outlinedStmt_agrees nests alike nonempty room _).map fun _ => rfl)
      fun _ => ?_
    refine (localStmt?_agrees alike inside).bind fun statement c₁ c₁' _ alike₁ => ?_
    cases statement with
    | some statement => exact .pure alike₁ rfl
    | none => exact (exprStmt_agrees alike₁).map fun _ => rfl

end Nesting

private theorem stmt?_agrees (alike : frame.Alike c c') :
    frame.Agrees stmt? stmt? c c' (Option.map (Stmt.moved frame.move)) :=
  .get <| Agreeing.enough (fun depth (_ : Unit) => stmtWithin depth)
    (fun depth _ => stmtWithin_moves depth)
    (fun _ _ nests _ _ _ alike room => stmtOf_agrees nests alike room) alike ()

private theorem stmt?_agreeing (frame : Frame) (bound : Nat) :
    Agreeing frame bound (Option.map (Stmt.moved frame.move)) (fun _ : Unit => stmt?)
      fun _ : Unit => stmt? :=
  ⟨fun _ => stmt?_moves, fun _ => stmt?_moves, fun _ _ _ alike _ => stmt?_agrees alike⟩

theorem block_notices (alike : frame.Alike c c') :
    frame.Notices block block c c' (Block.moved frame.move) :=
  blockOf_notices (stmt?_agreeing frame _) alike (Nat.lt_succ_self _)

end Parser
end MethodContracts.Source
