import MethodContracts.Proofs.Tree.Reading
import MethodContracts.Tree.Allocate

/-!
# Bodies made of trees

A body that was made of a tree is valid, and reading it gives the tree back. Every
step of allocation only adds to the arenas, after what it refers to, so what was
read before is read as before.
-/
namespace MethodContracts

namespace Arenas

/-- So far every reference makes sense. -/
structure Sound (arenas : Arenas) : Prop where
  exprs : ExprsDescend arenas.exprs
  stmts : StmtsDescend arenas.stmts
  inside : ∀ (parent : Nat) (stmt : Stmt), arenas.stmts[parent]? = some stmt →
    ∀ child ∈ stmt.childExprs, child.index < arenas.exprs.size

theorem empty_sound : empty.Sound := by
  constructor
  · intro parent expr found
    cases found
  · intro parent stmt found
    cases found
  · intro parent stmt found
    cases found

/-- What was there is still there. -/
structure Extends (before after : Arenas) : Prop where
  exprs : ∀ place : Nat, place < before.exprs.size → before.exprs[place]? = after.exprs[place]?
  moreExprs : before.exprs.size ≤ after.exprs.size
  stmts : ∀ place : Nat, place < before.stmts.size → before.stmts[place]? = after.stmts[place]?
  moreStmts : before.stmts.size ≤ after.stmts.size

theorem Extends.refl (arenas : Arenas) : arenas.Extends arenas :=
  ⟨fun _ _ => rfl, Nat.le_refl _, fun _ _ => rfl, Nat.le_refl _⟩

theorem Extends.trans {before middle after : Arenas} (first : before.Extends middle)
    (second : middle.Extends after) : before.Extends after where
  exprs place inside :=
    (first.exprs place inside).trans
      (second.exprs place (Nat.lt_of_lt_of_le inside first.moreExprs))
  moreExprs := Nat.le_trans first.moreExprs second.moreExprs
  stmts place inside :=
    (first.stmts place inside).trans
      (second.stmts place (Nat.lt_of_lt_of_le inside first.moreStmts))
  moreStmts := Nat.le_trans first.moreStmts second.moreStmts

/-- The expression at the place reads as the tree. -/
structure HasExpr (arenas : Arenas) (id : ExprId) (tree : Tree.Expr) : Prop where
  inside : id.index < arenas.exprs.size
  read : Tree.Expr.read arenas.exprs id = tree

/-- The statement at the place reads as the tree. -/
structure HasStmt (arenas : Arenas) (id : StmtId) (tree : Tree.Stmt) : Prop where
  inside : id.index < arenas.stmts.size
  read : Tree.Stmt.read arenas.stmts arenas.exprs id = tree

theorem read_of_extends {before after : Arenas} (sound : before.Sound)
    (extended : before.Extends after) (id : ExprId) (inside : id.index < before.exprs.size) :
    Tree.Expr.read after.exprs id = Tree.Expr.read before.exprs id :=
  (Tree.Expr.readWithin_eq before.exprs after.exprs sound.exprs before.exprs.size extended.exprs
    _ _ id inside (Nat.lt_succ_self _) (Nat.lt_succ_self _)).symm

theorem HasExpr.extend {before after : Arenas} {id : ExprId} {tree : Tree.Expr}
    (has : before.HasExpr id tree) (sound : before.Sound) (extended : before.Extends after) :
    after.HasExpr id tree where
  inside := Nat.lt_of_lt_of_le has.inside extended.moreExprs
  read := (read_of_extends sound extended id has.inside).trans has.read

theorem HasStmt.extend {before after : Arenas} {id : StmtId} {tree : Tree.Stmt}
    (has : before.HasStmt id tree) (sound : before.Sound) (extended : before.Extends after) :
    after.HasStmt id tree where
  inside := Nat.lt_of_lt_of_le has.inside extended.moreStmts
  read := by
    -- What a statement refers to was there before it.
    have sameExprs : ∀ (place : Nat) (stmt : Stmt), before.stmts[place]? = some stmt →
        ∀ child ∈ stmt.childExprs,
          Tree.Expr.read before.exprs child = Tree.Expr.read after.exprs child := by
      intro place stmt found child member
      have inside := sound.inside place stmt found child member
      exact (read_of_extends sound extended child inside).symm
    have same := Tree.Stmt.readWithin_eq before.stmts after.stmts before.exprs after.exprs
      sound.stmts sameExprs before.stmts.size extended.stmts _ _ id has.inside
      (Nat.lt_succ_self _) (Nat.lt_succ_self _)
    exact same.symm.trans has.read

end Arenas

/-! ## Adding one node -/

namespace Builder

/-- From these arenas a builder goes on to arenas that extend them and make sense,
and yields a value with this property there. -/
structure Yields {α : Type} (builder : Builder α) (before : Arenas) (has : Arenas → α → Prop) :
    Prop where
  extended : before.Extends (builder before).2
  sound : (builder before).2.Sound
  has : has (builder before).2 (builder before).1

theorem Yields.pure {α : Type} {before : Arenas} {has : Arenas → α → Prop} {value : α}
    (sound : before.Sound) (here : has before value) :
    (Pure.pure value : Builder α).Yields before has :=
  ⟨.refl before, sound, here⟩

theorem Yields.bind {α β : Type} {builder : Builder α} {next : α → Builder β} {before : Arenas}
    {first : Arenas → α → Prop} {has : Arenas → β → Prop} (start : builder.Yields before first)
    (rest : ∀ middle value, before.Extends middle → middle.Sound → first middle value →
      (next value).Yields middle has) : (builder >>= next).Yields before has := by
  have later := rest _ _ start.extended start.sound start.has
  exact ⟨start.extended.trans later.extended, later.sound, later.has⟩

/-- An expression that is added leaves what was there. -/
theorem addExpr_extends (expr : Expr) (before : Arenas) :
    before.Extends (addExpr expr before).2 := by
  refine ⟨fun place found => ?_, ?_, fun _ _ => rfl, Nat.le_refl _⟩
  · exact (Array.getElem?_push_lt found).symm ▸ Array.getElem?_eq_getElem found
  · simp [addExpr]

theorem addExpr_yields {before : Arenas} (sound : before.Sound) (expr : Expr)
    (inside : ∀ child ∈ expr.children, child.index < before.exprs.size) :
    (addExpr expr).Yields before fun after id =>
      after.HasExpr id (expr.toTree (Tree.Expr.read before.exprs)) := by
  have extended := addExpr_extends expr before
  -- Only the last place is new, and it refers to places that were there.
  have descend : ExprsDescend (addExpr expr before).2.exprs := by
    intro parent node found child member
    simp only [addExpr, Array.getElem?_push] at found
    split at found
    next last =>
      cases found
      exact last ▸ inside child member
    next => exact sound.exprs parent node found child member
  refine ⟨extended, ⟨descend, sound.stmts, ?_⟩, ?_, ?_⟩
  · intro parent stmt found child member
    exact Nat.lt_of_lt_of_le (sound.inside parent stmt found child member) extended.moreExprs
  · simp [addExpr]
  · -- The node reads as its children do, and they read as before.
    rw [Tree.Expr.read_eq_toTree _ descend _ expr (by simp [addExpr])]
    apply expr.toTree_congr
    intro child member
    exact Arenas.read_of_extends sound extended child (inside child member)

theorem addStmt_yields {before : Arenas} (sound : before.Sound) (stmt : Stmt)
    (insideStmts : ∀ child ∈ stmt.childStmts, child.index < before.stmts.size)
    (insideExprs : ∀ child ∈ stmt.childExprs, child.index < before.exprs.size) :
    (addStmt stmt).Yields before fun after id =>
      after.HasStmt id (stmt.toTree (Tree.Expr.read before.exprs)
        (Tree.Stmt.read before.stmts before.exprs)) := by
  have extended : before.Extends (addStmt stmt before).2 := by
    refine ⟨fun _ _ => rfl, Nat.le_refl _, fun place found => ?_, ?_⟩
    · exact (Array.getElem?_push_lt found).symm ▸ Array.getElem?_eq_getElem found
    · simp [addStmt]
  -- As for expressions: only the last place is new.
  have descend : StmtsDescend (addStmt stmt before).2.stmts := by
    intro parent node found child member
    simp only [addStmt, Array.getElem?_push] at found
    split at found
    next last =>
      cases found
      exact last ▸ insideStmts child member
    next => exact sound.stmts parent node found child member
  refine ⟨extended, ⟨sound.exprs, descend, ?_⟩, ?_, ?_⟩
  · intro parent node found child member
    simp only [addStmt, Array.getElem?_push] at found
    split at found
    next =>
      cases found
      exact insideExprs child member
    next => exact sound.inside parent node found child member
  · simp [addStmt]
  · rw [Tree.Stmt.read_eq_toTree _ _ descend _ stmt (by simp [addStmt])]
    apply stmt.toTree_congr
    · intro child member
      rfl
    · intro child member
      have has : before.HasStmt child (Tree.Stmt.read before.stmts before.exprs child) :=
        ⟨insideStmts child member, rfl⟩
      exact (has.extend sound extended).read

end Builder

/-! ## Adding trees -/

/-- The expressions at the places read as the trees. -/
structure Arenas.HasExprs (arenas : Arenas) (ids : List ExprId) (trees : List Tree.Expr) :
    Prop where
  inside : ∀ id ∈ ids, id.index < arenas.exprs.size
  read : ids.map (Tree.Expr.read arenas.exprs) = trees

namespace Tree

namespace Expr

theorem allocateList_yields (exprs : List Expr)
    (each : ∀ expr ∈ exprs, ∀ before : Arenas, before.Sound →
      expr.allocate.Yields before fun after id => after.HasExpr id expr)
    (before : Arenas) (sound : before.Sound) :
    (allocateList exprs).Yields before fun after ids => after.HasExprs ids exprs := by
  induction exprs generalizing before with
  | nil => exact Builder.Yields.pure sound ⟨List.forall_mem_nil _, rfl⟩
  | cons expr exprs ih =>
    apply (each expr List.mem_cons_self before sound).bind
    intro middle id _ middleSound first
    have others := ih (fun other member => each other (List.mem_cons_of_mem _ member)) middle
      middleSound
    apply others.bind
    intro after ids extended afterSound rest
    apply Builder.Yields.pure afterSound
    -- The first tree still reads the same after the others are added.
    have kept := first.extend middleSound extended
    refine ⟨List.forall_mem_cons.mpr ⟨kept.inside, rest.inside⟩, ?_⟩
    rw [List.map_cons, kept.read, rest.read]

/-- A node that refers to one expression. -/
private theorem one_yields {operand : Expr} {before : Arenas} (node : ExprId → MethodContracts.Expr)
    (tree : Expr → Expr) (children : ∀ id, (node id).children = [id])
    (read : ∀ f id, (node id).toTree f = tree (f id))
    (first : operand.allocate.Yields before fun after id => after.HasExpr id operand) :
    (operand.allocate >>= fun id => Builder.addExpr (node id)).Yields before
      fun after id => after.HasExpr id (tree operand) := by
  apply first.bind
  intro middle id _ sound has
  have added := Builder.addExpr_yields sound (node id) (by simpa [children id] using has.inside)
  rwa [read, has.read] at added

/-- A node that refers to two expressions. -/
private theorem two_yields {left right : Expr} {before : Arenas}
    (node : ExprId → ExprId → MethodContracts.Expr) (tree : Expr → Expr → Expr)
    (children : ∀ first second, (node first second).children = [first, second])
    (read : ∀ f first second, (node first second).toTree f = tree (f first) (f second))
    (first : left.allocate.Yields before fun after id => after.HasExpr id left)
    (second : ∀ middle : Arenas, middle.Sound →
      right.allocate.Yields middle fun after id => after.HasExpr id right) :
    (do
      let first ← left.allocate
      let second ← right.allocate
      Builder.addExpr (node first second)).Yields before
        fun after id => after.HasExpr id (tree left right) := by
  apply first.bind
  intro middle firstId _ sound firstHas
  apply (second middle sound).bind
  intro after secondId extended afterSound secondHas
  have kept := firstHas.extend sound extended
  have added := Builder.addExpr_yields afterSound (node firstId secondId)
    (by simp [children, kept.inside, secondHas.inside])
  rwa [read, kept.read, secondHas.read] at added

/-- A node that refers to a list of expressions. -/
private theorem list_yields {operands : List Expr} {before : Arenas}
    (node : List ExprId → MethodContracts.Expr) (tree : List Expr → Expr)
    (children : ∀ ids, (node ids).children = ids)
    (read : ∀ f ids, (node ids).toTree f = tree (ids.map f))
    (all : (allocateList operands).Yields before fun after ids => after.HasExprs ids operands) :
    (allocateList operands >>= fun ids => Builder.addExpr (node ids)).Yields before
      fun after id => after.HasExpr id (tree operands) := by
  apply all.bind
  intro middle ids _ sound has
  have added := Builder.addExpr_yields sound (node ids) (by rw [children]; exact has.inside)
  rwa [read, has.read] at added

/-- An expression that is added reads as it was. -/
theorem allocate_yields (expr : Expr) (before : Arenas) (sound : before.Sound) :
    expr.allocate.Yields before fun after id => after.HasExpr id expr := by
  induction expr using byChildren generalizing before with
  | step expr ih =>
    cases expr with
    | name | literal | this | lambda | missing =>
      exact Builder.addExpr_yields sound _ (List.forall_mem_nil _)
    | field receiver member span =>
      exact one_yields (.field · member span) (.field · member span) (fun _ => rfl)
        (fun _ _ => rfl) (ih receiver List.mem_cons_self before sound)
    | unary op operand span =>
      exact one_yields (.unary op · span) (.unary op · span) (fun _ => rfl)
        (fun _ _ => rfl) (ih operand List.mem_cons_self before sound)
    | instanceOf operand type span =>
      exact one_yields (.instanceOf · type span) (.instanceOf · type span) (fun _ => rfl)
        (fun _ _ => rfl) (ih operand List.mem_cons_self before sound)
    | paren inner span =>
      exact one_yields (.paren · span) (.paren · span) (fun _ => rfl)
        (fun _ _ => rfl) (ih inner List.mem_cons_self before sound)
    | cast type operand span =>
      exact one_yields (.cast type · span) (.cast type · span) (fun _ => rfl)
        (fun _ _ => rfl) (ih operand List.mem_cons_self before sound)
    | methodRef receiver member span =>
      exact one_yields (.methodRef · member span) (.methodRef · member span) (fun _ => rfl)
        (fun _ _ => rfl) (ih receiver List.mem_cons_self before sound)
    | index array position span =>
      exact two_yields (.index · · span) (.index · · span) (fun _ _ => rfl)
        (fun _ _ _ => rfl) (ih array List.mem_cons_self before sound)
        (ih position (by simp [children]))
    | assign target value span =>
      exact two_yields (.assign · · span) (.assign · · span) (fun _ _ => rfl)
        (fun _ _ _ => rfl) (ih target List.mem_cons_self before sound)
        (ih value (by simp [children]))
    | new type arguments span =>
      exact list_yields (.new type · span) (.new type · span) (fun _ => rfl)
        (fun _ _ => rfl) (allocateList_yields arguments ih before sound)
    | chain op operands span =>
      exact list_yields (.chain op · span) (.chain op · span) (fun _ => rfl)
        (fun _ _ => rfl) (allocateList_yields operands ih before sound)
    | call callee arguments span =>
      have each : ∀ expr ∈ arguments, ∀ before : Arenas, before.Sound →
          expr.allocate.Yields before fun after id => after.HasExpr id expr :=
        fun other member => ih other (List.mem_cons_of_mem _ member)
      apply (ih callee List.mem_cons_self before sound).bind
      intro middle calleeId _ middleSound calleeHas
      apply (allocateList_yields arguments each middle middleSound).bind
      intro after ids extended afterSound has
      have kept := calleeHas.extend middleSound extended
      have added := Builder.addExpr_yields afterSound (.call calleeId ids span)
        (List.forall_mem_cons.mpr ⟨kept.inside, has.inside⟩)
      rwa [MethodContracts.Expr.toTree, kept.read, has.read] at added
    | conditional condition whenTrue whenFalse span =>
      apply (ih condition List.mem_cons_self before sound).bind
      intro first conditionId _ firstSound conditionHas
      apply (ih whenTrue (by simp [children]) first firstSound).bind
      intro second trueId secondExtended secondSound trueHas
      apply (ih whenFalse (by simp [children]) second secondSound).bind
      intro after falseId extended afterSound falseHas
      -- What was added first still reads the same behind the other two.
      have conditionKept :=
        (conditionHas.extend firstSound secondExtended).extend secondSound extended
      have trueKept := trueHas.extend secondSound extended
      have added := Builder.addExpr_yields afterSound (.conditional conditionId trueId falseId span)
        (by simp [MethodContracts.Expr.children, conditionKept.inside, trueKept.inside,
          falseHas.inside])
      rwa [MethodContracts.Expr.toTree, conditionKept.read, trueKept.read, falseHas.read] at added

private theorem allocateOption_yields (expr : Option Expr) (before : Arenas)
    (sound : before.Sound) :
    (allocateOption expr).Yields before fun after id => after.HasExprs id.toList expr.toList := by
  cases expr with
  | none => exact Builder.Yields.pure sound ⟨List.forall_mem_nil _, rfl⟩
  | some expr =>
    apply (expr.allocate_yields before sound).bind
    intro after id _ afterSound has
    apply Builder.Yields.pure afterSound
    exact ⟨List.forall_mem_singleton.mpr has.inside, congrArg List.singleton has.read⟩

end Expr

end Tree

/-- The statements at the places read as the trees. -/
structure Arenas.HasStmts (arenas : Arenas) (ids : List StmtId) (trees : List Tree.Stmt) :
    Prop where
  inside : ∀ id ∈ ids, id.index < arenas.stmts.size
  read : ids.map (Tree.Stmt.read arenas.stmts arenas.exprs) = trees

namespace Tree.Stmt

theorem allocateList_yields (stmts : List Stmt)
    (each : ∀ stmt ∈ stmts, ∀ before : Arenas, before.Sound →
      stmt.allocate.Yields before fun after id => after.HasStmt id stmt)
    (before : Arenas) (sound : before.Sound) :
    (allocateList stmts).Yields before fun after ids => after.HasStmts ids stmts := by
  induction stmts generalizing before with
  | nil => exact Builder.Yields.pure sound ⟨List.forall_mem_nil _, rfl⟩
  | cons stmt stmts ih =>
    apply (each stmt List.mem_cons_self before sound).bind
    intro middle id _ middleSound first
    have others := ih (fun other member => each other (List.mem_cons_of_mem _ member)) middle
      middleSound
    apply others.bind
    intro after ids extended afterSound rest
    apply Builder.Yields.pure afterSound
    have kept := first.extend middleSound extended
    refine ⟨List.forall_mem_cons.mpr ⟨kept.inside, rest.inside⟩, ?_⟩
    rw [List.map_cons, kept.read, rest.read]

private theorem allocateOption_yields (stmt : Option Stmt)
    (each : ∀ only ∈ stmt.toList, ∀ before : Arenas, before.Sound →
      only.allocate.Yields before fun after id => after.HasStmt id only)
    (before : Arenas) (sound : before.Sound) :
    (allocateOption stmt).Yields before fun after id => after.HasStmts id.toList stmt.toList := by
  cases stmt with
  | none => exact Builder.Yields.pure sound ⟨List.forall_mem_nil _, rfl⟩
  | some stmt =>
    apply (each stmt (List.mem_singleton_self _) before sound).bind
    intro after id _ afterSound has
    apply Builder.Yields.pure afterSound
    exact ⟨List.forall_mem_singleton.mpr has.inside, congrArg List.singleton has.read⟩

private theorem map_eq_of_toList {α β : Type} {f : α → β} {id : Option α} {tree : Option β}
    (read : id.toList.map f = tree.toList) : id.map f = tree := by
  cases id <;> cases tree <;> simp_all

/-- A statement that refers to one expression. -/
private theorem value_yields {value : Expr} {before : Arenas} (sound : before.Sound)
    (node : ExprId → MethodContracts.Stmt) (tree : Expr → Stmt)
    (childStmts : ∀ id, (node id).childStmts = []) (childExprs : ∀ id, (node id).childExprs = [id])
    (read : ∀ f g id, (node id).toTree f g = tree (f id)) :
    (value.allocate >>= fun id => Builder.addStmt (node id)).Yields before
      fun after id => after.HasStmt id (tree value) := by
  apply (value.allocate_yields before sound).bind
  intro after id _ afterSound has
  have added := Builder.addStmt_yields afterSound (node id) (by simp [childStmts])
    (by simpa [childExprs] using has.inside)
  rwa [read, has.read] at added

/-- A statement that may refer to one expression. -/
private theorem option_yields {value : Option Expr} {before : Arenas} (sound : before.Sound)
    (node : Option ExprId → MethodContracts.Stmt) (tree : Option Expr → Stmt)
    (childStmts : ∀ id, (node id).childStmts = [])
    (childExprs : ∀ id, (node id).childExprs = id.toList)
    (read : ∀ f g id, (node id).toTree f g = tree (id.map f)) :
    (Expr.allocateOption value >>= fun id => Builder.addStmt (node id)).Yields before
      fun after id => after.HasStmt id (tree value) := by
  apply (Expr.allocateOption_yields value before sound).bind
  intro after id _ afterSound has
  have added := Builder.addStmt_yields afterSound (node id) (by simp [childStmts])
    (by rw [childExprs]; exact has.inside)
  rwa [read, map_eq_of_toList has.read] at added

/-- A statement that is added reads as it was. -/
theorem allocate_yields (stmt : Stmt) (before : Arenas) (sound : before.Sound) :
    stmt.allocate.Yields before fun after id => after.HasStmt id stmt := by
  induction stmt using byChildren generalizing before with
  | step stmt ih =>
    cases stmt with
    | skipped | empty =>
      exact Builder.addStmt_yields sound _ (List.forall_mem_nil _) (List.forall_mem_nil _)
    | block statements span =>
      apply (allocateList_yields statements ih before sound).bind
      intro after ids _ afterSound has
      have added := Builder.addStmt_yields afterSound (.block ids span) has.inside
        (List.forall_mem_nil _)
      rwa [MethodContracts.Stmt.toTree, has.read] at added
    | ifElse condition whenTrue whenFalse span =>
      apply (condition.allocate_yields before sound).bind
      intro first conditionId _ firstSound conditionHas
      apply (ih whenTrue List.mem_cons_self first firstSound).bind
      intro second trueId secondExtended secondSound trueHas
      have each : ∀ only ∈ whenFalse.toList, ∀ before : Arenas, before.Sound →
          only.allocate.Yields before fun after id => after.HasStmt id only :=
        fun other member => ih other (List.mem_cons_of_mem _ member)
      apply (allocateOption_yields whenFalse each second secondSound).bind
      intro after falseId extended afterSound falseHas
      -- As for conditionals: what was added first is kept.
      have conditionKept :=
        (conditionHas.extend firstSound secondExtended).extend secondSound extended
      have trueKept := trueHas.extend secondSound extended
      have added := Builder.addStmt_yields afterSound (.ifElse conditionId trueId falseId span)
        (List.forall_mem_cons.mpr ⟨trueKept.inside, falseHas.inside⟩)
        (List.forall_mem_singleton.mpr conditionKept.inside)
      rwa [MethodContracts.Stmt.toTree, conditionKept.read, trueKept.read,
        map_eq_of_toList falseHas.read] at added
    | throws value span =>
      exact value_yields sound (.throws · span) (.throws · span) (fun _ => rfl) (fun _ => rfl)
        (fun _ _ _ => rfl)
    | expr value span =>
      exact value_yields sound (.expr · span) (.expr · span) (fun _ => rfl) (fun _ => rfl)
        (fun _ _ _ => rfl)
    | returns value span =>
      exact option_yields sound (.returns · span) (.returns · span) (fun _ => rfl) (fun _ => rfl)
        (fun _ _ _ => rfl)
    | «local» name init span =>
      exact option_yields sound (.local name · span) (.local name · span) (fun _ => rfl)
        (fun _ => rfl) (fun _ _ _ => rfl)
    | assert condition message span =>
      apply (condition.allocate_yields before sound).bind
      intro middle conditionId _ middleSound conditionHas
      apply (Expr.allocateOption_yields message middle middleSound).bind
      intro after messageId extended afterSound messageHas
      have kept := conditionHas.extend middleSound extended
      have added := Builder.addStmt_yields afterSound (.assert conditionId messageId span)
        (List.forall_mem_nil _) (List.forall_mem_cons.mpr ⟨kept.inside, messageHas.inside⟩)
      rwa [MethodContracts.Stmt.toTree, kept.read, map_eq_of_toList messageHas.read] at added
    | «while» condition body span =>
      apply (condition.allocate_yields before sound).bind
      intro middle conditionId _ middleSound conditionHas
      apply (ih body List.mem_cons_self middle middleSound).bind
      intro after bodyId extended afterSound bodyHas
      have kept := conditionHas.extend middleSound extended
      have added := Builder.addStmt_yields afterSound (.while conditionId bodyId span)
        (List.forall_mem_singleton.mpr bodyHas.inside)
        (List.forall_mem_singleton.mpr kept.inside)
      rwa [MethodContracts.Stmt.toTree, kept.read, bodyHas.read] at added

/-- The body made of a tree is valid and reads as the tree. -/
theorem toBody_valid (tree : Stmt) : tree.toBody.Valid ∧ tree.toBody.tree = tree := by
  have made := tree.allocate_yields Arenas.empty Arenas.empty_sound
  refine ⟨?_, made.has.read⟩
  exact {
    root_lt := made.has.inside
    stmt_lt := made.sound.stmts
    stmt_expr_lt := made.sound.inside
    expr_lt := made.sound.exprs }

end Tree.Stmt
end MethodContracts
