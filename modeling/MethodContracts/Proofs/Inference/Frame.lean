import MethodContracts.Proofs.Body.Validity
import MethodContracts.Proofs.Inference.Agreement

/-!
# Parameters that are not named

Evaluation gets at a parameter only through a name, so it leaves alone every slot
that no name in what is evaluated resolves to. In particular nothing is inferred
about a parameter that the body does not name.
-/
namespace MethodContracts

/-- Every use on one of the paths has the property. -/
def OnPaths (property : Use → Prop) (paths : List (List Use)) : Prop :=
  ∀ path ∈ paths, ∀ use ∈ path, property use

namespace OnPaths

variable {property other : Use → Prop} {first second : List (List Use)}

theorem mono (on : OnPaths property first) (implied : ∀ use, property use → other use) :
    OnPaths other first :=
  fun path found use used => implied use (on path found use used)

theorem append (left : OnPaths property first) (right : OnPaths property second) :
    OnPaths property (first ++ second) :=
  List.forall_mem_append.mpr ⟨left, right⟩

theorem idle (right : OnPaths property second) : OnPaths property ([] :: second) :=
  List.forall_mem_cons.mpr ⟨List.forall_mem_nil _, right⟩

theorem join (left : OnPaths property first) (right : OnPaths property second) :
    OnPaths property (joinPaths first second) := by
  intro path found use used
  obtain ⟨before, beforeFound, found⟩ := List.mem_flatMap.mp found
  obtain ⟨rest, restFound, rfl⟩ := List.mem_map.mp found
  rcases List.mem_append.mp used with used | used
  · exact left before beforeFound use used
  · exact right rest restFound use used

end OnPaths

namespace Tree

/-! ## Names in trees -/

section

variable (params : List String) (slot : Nat)

mutual

/-- Whether a name somewhere in an expression resolves to the parameter at this position. -/
def Expr.names : Expr → Bool
  | .name word _ => params.idxOf? word == some slot
  | .literal _ _ _ | .this _ | .lambda _ | .missing _ => false
  | .field inner _ _ | .methodRef inner _ _ | .unary _ inner _ | .instanceOf inner _ _
  | .paren inner _ | .cast _ inner _ => inner.names
  | .index left right _ | .assign left right _ => left.names || right.names
  | .call callee arguments _ => callee.names || Expr.anyNames arguments
  | .new _ arguments _ => Expr.anyNames arguments
  | .chain _ operands _ => Expr.anyNames operands
  | .conditional condition whenTrue whenFalse _ =>
    condition.names || whenTrue.names || whenFalse.names

/-- The same for a name in any of the expressions. -/
def Expr.anyNames : List Expr → Bool
  | [] => false
  | expr :: exprs => expr.names || Expr.anyNames exprs

end

mutual

/-- Whether a name somewhere in a statement resolves to the parameter at this position. -/
def Stmt.names : Stmt → Bool
  | .block statements _ => Stmt.anyNames statements
  | .ifElse condition whenTrue none _ => condition.names params slot || whenTrue.names
  | .ifElse condition whenTrue (some whenFalse) _ =>
    condition.names params slot || whenTrue.names || whenFalse.names
  | .throws value _ | .returns (some value) _ | .local _ (some value) _ | .expr value _
  | .assert value none _ => value.names params slot
  | .assert condition (some message) _ => condition.names params slot || message.names params slot
  | .while condition body _ => condition.names params slot || body.names
  | .returns none _ | .local _ none _ | .skipped _ _ | .empty _ => false

/-- The same for a name in any of the statements. -/
def Stmt.anyNames : List Stmt → Bool
  | [] => false
  | stmt :: stmts => stmt.names || Stmt.anyNames stmts

end

end

theorem Expr.anyNames_iff {params : List String} {slot : Nat} (exprs : List Expr) :
    anyNames params slot exprs = true ↔ ∃ expr ∈ exprs, expr.names params slot = true := by
  induction exprs with
  | nil => simp [anyNames]
  | cons expr exprs ih => simp [anyNames, ih]

/-- Only parameters are named. -/
theorem Expr.slot_lt_of_names {params : List String} {slot : Nat} (expr : Expr)
    (named : expr.names params slot = true) : slot < params.length := by
  induction expr using byChildren with
  | step expr ih =>
    cases expr with
    | name word span => exact slot_lt_length (beq_iff_eq.mp named)
    | literal | this | lambda | missing => cases named
    | _ =>
      -- Some part names the parameter.
      simp only [names, Bool.or_eq_true, anyNames_iff] at named
      grind [children]

theorem Stmt.anyNames_iff {params : List String} {slot : Nat} (stmts : List Stmt) :
    anyNames params slot stmts = true ↔ ∃ stmt ∈ stmts, stmt.names params slot = true := by
  induction stmts with
  | nil => simp [anyNames]
  | cons stmt stmts ih => simp [anyNames, ih]

theorem Stmt.slot_lt_of_names {params : List String} {slot : Nat} (stmt : Stmt)
    (named : stmt.names params slot = true) : slot < params.length := by
  induction stmt using byChildren with
  | step stmt ih =>
    unfold names at named
    split at named <;> grind [children, → Expr.slot_lt_of_names, anyNames_iff]

/-! ## What paths use is named -/

namespace Expr

variable {params : List String} {slot : Nat}

/-- The names in a part are names in the whole. -/
private theorem names_of_part {expr child : Expr} (member : child ∈ expr.children)
    (named : child.names params slot = true) : expr.names params slot = true := by
  cases expr with
  | call callee arguments span =>
    simp only [names, Bool.or_eq_true, anyNames_iff]
    rcases List.mem_cons.mp member with rfl | member
    · exact Or.inl named
    · exact Or.inr ⟨child, member, named⟩
  | new type operands span | chain op operands span =>
    simp only [names, anyNames_iff]
    exact ⟨child, member, named⟩
  | name | literal | this | lambda | missing => cases member
  -- In all other expressions the parts are listed one by one.
  | _ =>
    simp only [children, List.mem_cons, List.not_mem_nil, or_false] at member
    simp only [names, Bool.or_eq_true]
    grind

private theorem names_of_slot? {expr : Expr} (found : expr.slot? params = some slot) :
    expr.names params slot = true := by
  obtain ⟨word, span, rfl, named⟩ := slot?_eq_some found
  simp only [names, named, beq_self_eq_true]

private theorem names_of_comparison? {op : BinaryOp} {left right : Expr} {span : Span}
    {constraint : Constraint} (found : left.comparison? params right = some (slot, constraint)) :
    (chain op [left, right] span).names params slot = true := by
  rcases comparison?_eq_some found with ⟨isSlot, _⟩ | ⟨isSlot, _⟩
  · exact names_of_part List.mem_cons_self (names_of_slot? isSlot)
  · exact names_of_part (List.mem_cons_of_mem _ List.mem_cons_self) (names_of_slot? isSlot)

/-- What an atomic expression asks of a parameter it asks by name. -/
private theorem names_of_atom (expr : Expr) (use : Use)
    (used : use ∈ (expr.atom params).use?.toList) : expr.names params use.slot = true := by
  have asks := expr.atom_asks params
  generalize expr.atom params = atom at asks used
  cases asks with
  | equal found | notEqual found =>
    cases List.mem_singleton.mp used
    exact names_of_comparison? found
  | typeTest found =>
    cases List.mem_singleton.mp used
    exact names_of_part List.mem_cons_self (names_of_slot? found)
  | use named =>
    cases List.mem_singleton.mp used
    exact names_of_slot? named
  | constant _ | unknown => cases used

private theorem onPaths_part (expr : Expr) {child : Expr} {paths : List (List Use)}
    (member : child ∈ expr.children)
    (on : OnPaths (fun use => child.names params use.slot = true) paths) :
    OnPaths (fun use => expr.names params use.slot = true) paths :=
  on.mono fun _ named => names_of_part member named

private theorem chainPaths_names {property : Use → Prop} (operands : List Expr)
    (each : ∀ operand ∈ operands, OnPaths property (operand.paths params)) :
    OnPaths property (chainPaths params operands) := by
  induction operands with
  | nil => exact OnPaths.idle (List.forall_mem_nil _)
  | cons operand operands ih =>
    have rest := ih fun other found => each other (List.mem_cons_of_mem _ found)
    exact (each operand List.mem_cons_self).join rest.idle

/-- Every use on a path of an expression is of a parameter that the expression names. -/
theorem paths_names (expr : Expr) :
    OnPaths (fun use => expr.names params use.slot = true) (expr.paths params) := by
  induction expr using byShape with
  | chain op stop operands span stops ih =>
    rw [paths_chain stops]
    exact chainPaths_names operands fun operand found =>
      onPaths_part (.chain op operands span) found (ih operand found)
  | conditional condition whenTrue whenFalse span conditionIH trueIH falseIH =>
    have decided := onPaths_part (.conditional condition whenTrue whenFalse span)
      (by simp [children]) conditionIH
    have first := onPaths_part (.conditional condition whenTrue whenFalse span)
      (by simp [children]) trueIH
    have second := onPaths_part (.conditional condition whenTrue whenFalse span)
      (by simp [children]) falseIH
    exact decided.join (first.append second)
  | paren inner span ih => exact onPaths_part (.paren inner span) List.mem_cons_self ih
  | not operand span ih => exact onPaths_part (.unary .not operand span) List.mem_cons_self ih
  | atomic expr isAtomic =>
    rw [paths_atomic isAtomic]
    intro path found use used
    cases List.mem_singleton.mp found
    exact expr.names_of_atom use used

end Expr

namespace Stmt

variable {params : List String}

/-- Every use on a path of a statement is of a parameter that the statement names. -/
theorem paths_names (stmt : Stmt) :
    OnPaths (fun use => stmt.names params use.slot = true) (stmt.paths params) := by
  induction stmt using byChildren with
  | step stmt ih =>
    unfold paths
    -- Each part on the paths is a part of what the statement names.
    split
    next only span =>
      have inner := ih only List.mem_cons_self
      exact inner.mono fun _ named => by simp [names, anyNames, named]
    next condition whenTrue whenFalse span =>
      have first := ih whenTrue (by simp [children])
      have second := ih whenFalse (by simp [children])
      apply OnPaths.join
      · exact condition.paths_names.mono fun _ named => by simp [names, named]
      · apply OnPaths.append
        · exact first.mono fun _ named => by simp [names, named]
        · exact second.mono fun _ named => by simp [names, named]
    next condition whenTrue span =>
      have branch := ih whenTrue List.mem_cons_self
      apply OnPaths.join
      · exact condition.paths_names.mono fun _ named => by simp [names, named]
      · exact (branch.mono fun _ named => by simp [names, named]).idle
    next value span => exact value.paths_names
    next condition message span =>
      cases message with
      | none => exact condition.paths_names
      | some message => exact condition.paths_names.mono fun _ named => by simp [names, named]
    next => exact OnPaths.idle (List.forall_mem_nil _)

/-- Every use on a path of statements is of a parameter that they name. -/
theorem allPaths_names (stmts : List Stmt) :
    OnPaths (fun use => anyNames params use.slot stmts = true) (allPaths params stmts) := by
  induction stmts using byGuards with
  | nil => exact OnPaths.idle (List.forall_mem_nil _)
  | guard condition whenTrue span stmts ih =>
    apply OnPaths.join
    · exact condition.paths_names.mono fun _ named => by simp [anyNames, names, named]
    · apply OnPaths.append
      · exact whenTrue.paths_names.mono fun _ named => by simp [anyNames, names, named]
      · exact ih.mono fun _ named => by simp [anyNames, named]
  | last stmt stmts isLast =>
    rw [allPaths_last stmt stmts isLast]
    exact stmt.paths_names.mono fun _ named => by simp [anyNames, named]

end Stmt

end Tree

/-! ## Contracts and the states they come from -/

/-- The contract comes from one of the states, as long as its arguments, and says
something else only of parameters that are named. -/
def Contract.Frames (named : Nat → Bool) (states : List Arguments) (contract : Contract) : Prop :=
  ∃ state ∈ states, contract.arguments.length = state.length ∧
    ∀ slot, contract.arguments[slot]? ≠ state[slot]? → named slot = true

theorem Tree.Follows.frames {paths : List (List Use)} {states : List Arguments}
    {contract : Contract} {named : Nat → Bool} (follows : Tree.Follows paths states contract)
    (on : OnPaths (fun use => named use.slot = true) paths) : contract.Frames named states := by
  obtain ⟨state, member, path, found, along⟩ := follows
  refine ⟨state, member, along.length_eq, fun slot changed => ?_⟩
  -- A slot that the path does not use is as it was.
  apply Classical.byContradiction
  intro unnamed
  apply changed
  exact along.unused slot fun use used same => unnamed (same ▸ on path found use used)

/-- A root names what its statements name. -/
theorem Tree.Stmt.anyNames_statements {params : List String} {slot : Nat} (root : Tree.Stmt) :
    anyNames params slot root.statements = root.names params slot := by
  cases root with
  | block => rfl
  | _ => exact Bool.or_false _

/-- Parameters that are not named are left alone. Every contract of what is evaluated in
a valid body comes from a state of the same length, from which it differs only at
parameters that some name resolves to, and a contract inferred from the body says nothing
of the parameters that the body does not name. -/
theorem Method.inferContracts_frame (method : Method) (body : Body)
    (present : method.body = some body) (accepted : body.validate = .ok ()) (maxStates : Nat) :
    (∀ states : List Arguments,
      (∀ id : ExprId, id.index < body.exprs.size →
        Answers (Fit (method.params.map (·.name)) states)
          ((method.interpreter body maxStates).evalExpr states id)
          fun contracts => ∀ contract ∈ contracts, contract.Frames
            (fun slot => (body.exprTree id).names (method.params.map (·.name)) slot) states) ∧
      ∀ ids : List StmtId, (∀ id ∈ ids, id.index < body.stmts.size) →
        Answers (Fit (method.params.map (·.name)) states)
          ((method.interpreter body maxStates).evalStmts states ids)
          fun contracts => ∀ contract ∈ contracts, contract.Frames
            (fun slot => Tree.Stmt.anyNames (method.params.map (·.name)) slot
              (ids.map body.stmtTree)) states) ∧
    ∃ contracts, method.inferContracts maxStates = .ok contracts ∧
      ∀ contract ∈ contracts, contract.arguments.length = method.params.length ∧
        ∀ slot < method.params.length,
          body.tree.names (method.params.map (·.name)) slot = false →
            contract.arguments[slot]? = some .any := by
  have valid := body.valid_of_validate accepted
  refine ⟨fun states => ⟨fun id inside => ?_, fun ids inside => ?_⟩, ?_⟩
  · apply ((method.interpreter body maxStates).evalExpr_agrees valid id inside states).answers
    intro contract member
    exact ((body.exprTree id).eval_follows states contract member).frames
      (body.exprTree id).paths_names
  · apply ((method.interpreter body maxStates).evalStmts_agrees valid ids inside states).answers
    intro contract member
    exact (Tree.Stmt.evalAll_follows _ states contract member).frames
      (Tree.Stmt.allPaths_names _)
  · refine ⟨_, method.inferContracts_eq body present valid maxStates, fun contract member => ?_⟩
    have framed : contract.Frames
        (fun slot => Tree.Stmt.anyNames (method.params.map (·.name)) slot body.tree.statements)
        [Arguments.unknown method.params.length] :=
      (Tree.Stmt.evalAll_follows _ _ contract member).frames (Tree.Stmt.allPaths_names _)
    obtain ⟨state, found, length, changed⟩ := framed
    cases List.mem_singleton.mp found
    refine ⟨by rw [length, Arguments.unknown, List.length_replicate], ?_⟩
    intro slot inside unnamed
    have start : (Arguments.unknown method.params.length)[slot]? = some .any := by
      rw [Arguments.unknown, List.getElem?_replicate, if_pos inside]
    -- Where the contract says something, a statement of the body names the parameter.
    apply Classical.byContradiction
    intro known
    have named : Tree.Stmt.anyNames (method.params.map (·.name)) slot body.tree.statements = true :=
      changed slot (start ▸ known)
    rw [body.tree.anyNames_statements, unnamed] at named
    cases named

/-- The body `if (x == null) throw x; return y;` in arenas that also hold the name `z`. -/
def Body.spareName : Body where
  root := ⟨3⟩
  stmts := #[.throws ⟨0⟩ ⟨15, 23⟩, .ifElse ⟨2⟩ ⟨0⟩ none ⟨0, 23⟩, .returns (some ⟨3⟩) ⟨24, 33⟩,
    .block [⟨1⟩, ⟨2⟩] ⟨0, 33⟩]
  exprs := #[.name "x" ⟨4, 5⟩, .literal .null "null" ⟨9, 13⟩, .chain .equal [⟨0⟩, ⟨1⟩] ⟨4, 13⟩,
    .name "y" ⟨31, 32⟩, .name "z" ⟨0, 0⟩]

def Method.spareName : Method where
  name := "f"
  owner := none
  params := [⟨"x", "Object"⟩, ⟨"z", "Object"⟩, ⟨"y", "boolean"⟩]
  annotations := []
  body := some .spareName
  span := ⟨0, 33⟩

theorem Method.inferContracts_frame_spareName :
    Body.spareName.validate = .ok () ∧
      (Method.spareName.interpreter .spareName 300).evalExpr
        [[.any, .isTrue, .null], [.notNull, .any, .any]] ⟨2⟩ =
          .ok [⟨[.null, .isTrue, .null], .isTrue⟩, ⟨[.notNull, .isTrue, .null], .isFalse⟩,
            ⟨[.null, .any, .any], .isTrue⟩, ⟨[.notNull, .any, .any], .isFalse⟩] ∧
      (∀ contract ∈ [⟨[.null, .isTrue, .null], .isTrue⟩, ⟨[.notNull, .isTrue, .null], .isFalse⟩,
          ⟨[.null, .any, .any], .isTrue⟩, ⟨[.notNull, .any, .any], .isFalse⟩],
        Contract.Frames (fun slot => (Body.spareName.exprTree ⟨2⟩).names ["x", "z", "y"] slot)
          [[.any, .isTrue, .null], [.notNull, .any, .any]] contract) ∧
      Body.spareName.tree.names ["x", "z", "y"] 1 = false ∧
      ∃ contracts, Method.spareName.inferContracts 300 = .ok contracts ∧
        ∀ contract ∈ contracts, contract.arguments[1]? = some .any := by
  obtain ⟨framed, contracts, inferred, silent⟩ :=
    Method.inferContracts_frame .spareName .spareName rfl rfl 300
  have unnamed : Body.spareName.tree.names ["x", "z", "y"] 1 = false := by decide
  exact ⟨rfl, rfl, ((framed _).1 ⟨2⟩ (by decide)).2 _ rfl, unnamed, contracts, inferred,
    fun contract member => (silent contract member).2 1 (by decide) unnamed⟩

end MethodContracts
