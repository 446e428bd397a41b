import MethodContracts.Proofs.Execution.Basic
import MethodContracts.Proofs.Inference.Trees

/-!
# Every body can be executed

For all values of the parameters there is an outcome, so what is said of every
execution is said of at least one.
-/
namespace MethodContracts

/-- A condition throws, decides, or leaves everything open. -/
theorem ExprOutcome.throws_or_decides (outcome : ExprOutcome) :
    outcome = .thrown ∨ (∃ truth, outcome = .value (.ofBool truth)) ∨
      ∃ value, outcome = .value value ∧ ∀ truth, value ≠ .ofBool truth := by
  cases outcome with
  | thrown => exact Or.inl rfl
  | value value =>
    right
    by_cases decided : ∃ truth, value = .ofBool truth
    · obtain ⟨truth, rfl⟩ := decided
      exact Or.inl ⟨truth, rfl⟩
    · exact Or.inr ⟨value, rfl, fun truth equal => decided ⟨truth, equal⟩⟩

namespace Tree

variable (params : List String)

private theorem Expr.chain_total (stop : Bool) (operands : List Expr)
    (each : ∀ operand ∈ operands, ∀ values, ∃ outcome after,
      operand.Evaluates params values outcome after) (values : Values) :
    ∃ outcome after, EvaluatesChain params stop operands values outcome after := by
  induction operands generalizing values with
  | nil => exact ⟨_, _, .none⟩
  | cons operand operands ih =>
    obtain ⟨outcome, middle, run⟩ := each operand List.mem_cons_self values
    -- The outcome of the first operand says which rule applies.
    rcases outcome.throws_or_decides with rfl | ⟨truth, rfl⟩ | ⟨value, rfl, neither⟩
    · exact ⟨_, _, .thrown run⟩
    · by_cases ends : truth = stop
      · subst ends
        exact ⟨_, _, .stop run⟩
      · obtain ⟨outcome, after, rest⟩ :=
          ih (fun other member => each other (List.mem_cons_of_mem _ member)) middle
        -- A truth value that is not the stop is its opposite.
        have goesOn : truth = !stop := by cases truth <;> cases stop <;> simp_all
        subst goesOn
        exact ⟨_, _, .next run rest⟩
    · exact ⟨.thrown, values, .open run neither⟩

private theorem Expr.evaluates_total (expr : Expr) (values : Values) :
    ∃ outcome after, expr.Evaluates params values outcome after := by
  induction expr using byShape generalizing values with
  | chain op stop operands span stops ih =>
    cases op with
    | and =>
      obtain ⟨outcome, after, run⟩ := chain_total params false operands ih values
      exact ⟨_, _, .and run⟩
    | or =>
      obtain ⟨outcome, after, run⟩ := chain_total params true operands ih values
      exact ⟨_, _, .or run⟩
    | _ => cases stops
  | conditional condition whenTrue whenFalse span conditionIH trueIH falseIH =>
    obtain ⟨outcome, middle, run⟩ := conditionIH values
    rcases outcome.throws_or_decides with rfl | ⟨truth, rfl⟩ | ⟨value, rfl, neither⟩
    · exact ⟨_, _, .whenThrown run⟩
    · cases truth with
      | true =>
        obtain ⟨outcome, after, rest⟩ := trueIH middle
        exact ⟨_, _, .whenTrue run rest⟩
      | false =>
        obtain ⟨outcome, after, rest⟩ := falseIH middle
        exact ⟨_, _, .whenFalse run rest⟩
    · exact ⟨.thrown, values, .whenOpen run neither⟩
  | paren inner span ih =>
    obtain ⟨outcome, after, run⟩ := ih values
    exact ⟨_, _, .paren run⟩
  | not operand span ih =>
    obtain ⟨outcome, middle, run⟩ := ih values
    rcases outcome.throws_or_decides with rfl | ⟨truth, rfl⟩ | ⟨value, rfl, neither⟩
    · exact ⟨_, _, .notThrown run⟩
    · exact ⟨_, _, .not run⟩
    · exact ⟨.thrown, values, .notOpen run neither⟩
  | atomic expr isAtomic =>
    -- What is not understood may do anything, so it may throw.
    by_cases understood : Understood params expr
    · cases understood with
      | name named => exact ⟨_, _, .name named⟩
      | literal constant => exact ⟨_, _, .literal constant⟩
      | equal compares => exact ⟨_, _, .equal compares⟩
      | notEqual compares => exact ⟨_, _, .notEqual compares⟩
      | @instanceOf word nameSpan type span slot named =>
        -- Of an object, either answer will do.
        by_cases isNull : values slot = .null
        · exact ⟨_, _, .instanceNull named isNull⟩
        · exact ⟨.value (.ofBool true), _, .instanceObject named isNull⟩
      | _ => cases isAtomic
    · exact ⟨.thrown, values, .unknown understood⟩

private theorem Stmt.all_total (stmts : List Stmt)
    (each : ∀ stmt ∈ stmts, ∀ values, ∃ completion after,
      stmt.Runs params values completion after) (values : Values) :
    ∃ completion after, RunsAll params stmts values completion after := by
  induction stmts generalizing values with
  | nil => exact ⟨_, _, .none⟩
  | cons stmt stmts ih =>
    obtain ⟨completion, middle, run⟩ := each stmt List.mem_cons_self values
    by_cases normal : completion = .normal
    · subst normal
      obtain ⟨completion, after, rest⟩ :=
        ih (fun other member => each other (List.mem_cons_of_mem _ member)) middle
      exact ⟨_, _, .next run rest⟩
    · exact ⟨_, _, .stop run normal⟩

theorem Stmt.runs_total (stmt : Stmt) (values : Values) :
    ∃ completion after, stmt.Runs params values completion after := by
  induction stmt using byChildren generalizing values with
  | step stmt ih =>
    -- Conditions have an outcome already, and parts have one by induction.
    cases stmt with
    | block statements span =>
      obtain ⟨completion, after, run⟩ := all_total params statements ih values
      exact ⟨_, _, .block run⟩
    | ifElse condition whenTrue whenFalse span =>
      obtain ⟨outcome, middle, run⟩ := condition.evaluates_total params values
      rcases outcome.throws_or_decides with rfl | ⟨truth, rfl⟩ | ⟨value, rfl, neither⟩
      · exact ⟨_, _, .ifThrown run⟩
      · cases truth with
        | true =>
          obtain ⟨completion, after, rest⟩ := ih whenTrue List.mem_cons_self middle
          exact ⟨_, _, .ifTrue run rest⟩
        | false =>
          cases whenFalse with
          | none => exact ⟨_, _, .ifSkipped run⟩
          | some whenFalse =>
            obtain ⟨completion, after, rest⟩ := ih whenFalse (by simp [children]) middle
            exact ⟨_, _, .ifFalse run rest⟩
      · exact ⟨.thrown, values, .ifOpen run neither⟩
    | throws value span =>
      obtain ⟨outcome, after, run⟩ := value.evaluates_total params values
      exact ⟨_, _, .throws run⟩
    | returns value span =>
      cases value with
      | none => exact ⟨_, _, .returnsNothing⟩
      | some value =>
        obtain ⟨outcome, after, run⟩ := value.evaluates_total params values
        cases outcome with
        | value result => exact ⟨_, _, .returns run⟩
        | thrown => exact ⟨_, _, .returnsThrown run⟩
    | assert condition message span =>
      obtain ⟨outcome, middle, run⟩ := condition.evaluates_total params values
      rcases outcome.throws_or_decides with rfl | ⟨truth, rfl⟩ | ⟨value, rfl, neither⟩
      · exact ⟨_, _, .assertThrown run⟩
      · cases truth with
        | true => exact ⟨_, _, .assertTrue run⟩
        | false => exact ⟨.thrown, values, .assertFalse run⟩
      · exact ⟨.thrown, values, .assertOpen run neither⟩
    | _ => exact ⟨.thrown, values, .unknown rfl⟩

end Tree
end MethodContracts
