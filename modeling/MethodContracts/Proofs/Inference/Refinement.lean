import MethodContracts.Proofs.Body.Validity
import MethodContracts.Proofs.Inference.Agreement

/-!
# What evaluation keeps of a state

A test pins the slot of its parameter, whatever was known of it, so a contract
need not refine the state it comes from. Nothing else replaces what is known: off
the parameters that its path tests, a contract says all that its state says.
-/
namespace MethodContracts

/-- The arguments say all that the state says. -/
def Arguments.Refines (arguments state : Arguments) : Prop :=
  ∀ (slot : Nat) (known : Constraint), state[slot]? = some known → known ≠ .any →
    arguments[slot]? = some known

/-- The arguments say all that the state says of parameters that the path does not test. -/
def Arguments.RefinesBut (path : List Use) (arguments state : Arguments) : Prop :=
  ∀ (slot : Nat) (known : Constraint), state[slot]? = some known → known ≠ .any →
    .test slot ∉ path → arguments[slot]? = some known

/-- The contract comes from one of the states along one of the paths, and says all
that the state says of parameters that the path does not test. -/
def Contract.Keeps (paths : List (List Use)) (states : List Arguments) (contract : Contract) :
    Prop :=
  ∃ state ∈ states, ∃ path ∈ paths,
    Along path state contract.arguments ∧ contract.arguments.RefinesBut path state

theorem Tree.Follows.keeps {paths : List (List Use)} {states : List Arguments}
    {contract : Contract} (follows : Tree.Follows paths states contract) :
    contract.Keeps paths states := by
  obtain ⟨state, member, path, pathMember, along⟩ := follows
  refine ⟨state, member, path, pathMember, along, ?_⟩
  intro slot known found decided untested
  exact along.keeps slot untested known decided found

namespace Interpreter

/-- The expression `x == null && y` and the statement that returns it. -/
def nullTest : Interpreter where
  body := {
    root := ⟨0⟩
    stmts := #[.returns (some ⟨4⟩) ⟨0, 22⟩]
    exprs := #[.name "x" ⟨7, 8⟩, .literal .null "null" ⟨12, 16⟩,
      .chain .equal [⟨0⟩, ⟨1⟩] ⟨7, 16⟩, .name "y" ⟨20, 21⟩, .chain .and [⟨2⟩, ⟨3⟩] ⟨7, 21⟩] }
  params := ["x", "y"]
  maxStates := 300

/-- Contracts do not always refine a state: a test of a parameter that is known
not to be null yields a contract for `null` too. -/
theorem not_eval_refines :
    ¬∀ i : Interpreter, i.body.validate = .ok () → ∀ states : List Arguments,
      (∀ id : ExprId, id.index < i.body.exprs.size →
        ∀ contracts, i.evalExpr states id = .ok contracts →
          ∀ contract ∈ contracts, ∃ state ∈ states, contract.arguments.Refines state) ∧
      ∀ ids : List StmtId, (∀ id ∈ ids, id.index < i.body.stmts.size) →
        ∀ contracts, i.evalStmts states ids = .ok contracts →
          ∀ contract ∈ contracts, ∃ state ∈ states, contract.arguments.Refines state := by
  intro refines
  have yielded : nullTest.evalExpr [[.notNull, .isTrue]] ⟨2⟩ =
      .ok [⟨[.null, .isTrue], .isTrue⟩, ⟨[.notNull, .isTrue], .isFalse⟩] := rfl
  obtain ⟨state, member, refined⟩ := (refines nullTest rfl [[.notNull, .isTrue]]).1 ⟨2⟩ (by decide)
    _ yielded ⟨[.null, .isTrue], .isTrue⟩ List.mem_cons_self
  cases List.mem_singleton.mp member
  -- The state says that x is not null, and the contract that it is null.
  have kept := refined 0 .notNull rfl (by decide)
  cases kept

/-- Whatever is evaluated of a valid body: with a slot for every parameter there
are contracts, and each contract keeps what a state says of the parameters that
are not tested on its path. -/
theorem eval_keeps (i : Interpreter) (accepted : i.body.validate = .ok ())
    (states : List Arguments) :
    (∀ id : ExprId, id.index < i.body.exprs.size →
      (Fit i.params states → ∃ contracts, i.evalExpr states id = .ok contracts) ∧
      ∀ contracts, i.evalExpr states id = .ok contracts →
        ∀ contract ∈ contracts, contract.Keeps ((i.body.exprTree id).paths i.params) states) ∧
    ∀ ids : List StmtId, (∀ id ∈ ids, id.index < i.body.stmts.size) →
      (Fit i.params states → ∃ contracts, i.evalStmts states ids = .ok contracts) ∧
      ∀ contracts, i.evalStmts states ids = .ok contracts →
        ∀ contract ∈ contracts,
          contract.Keeps (Tree.Stmt.allPaths i.params (ids.map i.body.stmtTree)) states := by
  have valid := i.body.valid_of_validate accepted
  -- Evaluation yields what the tree yields, and that follows paths of the tree.
  constructor
  · intro id inside
    have agrees := i.evalExpr_agrees valid id inside states
    refine ⟨fun fit => ⟨_, agrees.eq_ok fit⟩, ?_⟩
    intro contracts yielded contract member
    rw [agrees.eq_value yielded] at member
    exact ((i.body.exprTree id).eval_follows states contract member).keeps
  · intro ids inside
    have agrees := i.evalStmts_agrees valid ids inside states
    refine ⟨fun fit => ⟨_, agrees.eq_ok fit⟩, ?_⟩
    intro contracts yielded contract member
    rw [agrees.eq_value yielded] at member
    exact (Tree.Stmt.evalAll_follows _ states contract member).keeps

theorem eval_keeps_nullTest :
    nullTest.body.validate = .ok () ∧
      (∀ id : ExprId, id.index < nullTest.body.exprs.size →
        (Fit nullTest.params [[.notNull, .isTrue]] →
          ∃ contracts, nullTest.evalExpr [[.notNull, .isTrue]] id = .ok contracts) ∧
        ∀ contracts, nullTest.evalExpr [[.notNull, .isTrue]] id = .ok contracts →
          ∀ contract ∈ contracts,
            contract.Keeps ((nullTest.body.exprTree id).paths nullTest.params)
              [[.notNull, .isTrue]]) ∧
      ∀ ids : List StmtId, (∀ id ∈ ids, id.index < nullTest.body.stmts.size) →
        (Fit nullTest.params [[.notNull, .isTrue]] →
          ∃ contracts, nullTest.evalStmts [[.notNull, .isTrue]] ids = .ok contracts) ∧
        ∀ contracts, nullTest.evalStmts [[.notNull, .isTrue]] ids = .ok contracts →
          ∀ contract ∈ contracts,
            contract.Keeps (Tree.Stmt.allPaths nullTest.params (ids.map nullTest.body.stmtTree))
              [[.notNull, .isTrue]] :=
  ⟨rfl, eval_keeps nullTest rfl [[.notNull, .isTrue]]⟩

end Interpreter
end MethodContracts
