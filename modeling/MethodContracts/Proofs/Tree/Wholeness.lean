import MethodContracts.Method.OfSource
import MethodContracts.Proofs.Source.Parsing
import MethodContracts.Proofs.Tree.Size

/-!
# Whole bodies

Only a hole in a source becomes a missing expression of a body. Since a parser that finds no
errors leaves no hole and no name empty, the bodies of what it read are whole.
-/
namespace MethodContracts

/-- The expression does not stand for one that is missing. -/
def Expr.Present (expr : Expr) : Prop := ∀ span, expr ≠ .missing span

/-- No expression of the body is missing. -/
def Body.Whole (body : Body) : Prop := ∀ expr ∈ body.exprs, expr.Present

namespace Builder

/-- The builder adds no missing expression. -/
def Fills {α : Type} (builder : Builder α) : Prop :=
  ∀ before : Arenas, (∀ expr ∈ before.exprs, expr.Present) →
    ∀ expr ∈ (builder before).2.exprs, expr.Present

theorem Fills.pure {α : Type} {value : α} : Fills (Pure.pure value) := fun _ whole => whole

theorem Fills.bind {α β : Type} {builder : Builder α} {next : α → Builder β}
    (first : builder.Fills) (rest : ∀ value, (next value).Fills) : Fills (builder >>= next) :=
  fun before whole => rest _ _ (first before whole)

private theorem addExpr_fills {expr : Expr} (present : expr.Present) : (addExpr expr).Fills := by
  intro before whole other member
  rcases Array.mem_push.mp member with old | rfl
  · exact whole other old
  · exact present

private theorem addStmt_fills (stmt : Stmt) : (addStmt stmt).Fills := fun _ whole => whole

end Builder

namespace Tree

open Builder Source.Outline

namespace Expr

private theorem allocateList_singleton_fills {tree : Expr} (whole : tree.allocate.Fills) :
    (allocateList [tree]).Fills := fun before => whole before

/-- No missing expression is added with the expression, and none with what it contributes
to a chain. -/
structure Whole (tree : Expr) : Prop where
  whole : tree.allocate.Fills
  operands : ∀ op, (allocateList (tree.operandsFor op)).Fills

theorem Whole.alone {tree : Expr} (whole : tree.allocate.Fills)
    (kept : ∀ op, tree.operandsFor op = [tree]) : tree.Whole where
  whole := whole
  operands op := by
    rw [kept]
    exact allocateList_singleton_fills whole

theorem Whole.chain {op : BinaryOp} {first second : Expr} {span : Span} (left : first.Whole)
    (right : second.Whole) : (chain op (first.operandsFor op ++ [second]) span).Whole := by
  have operands : (allocateList (first.operandsFor op ++ [second])).Fills := by
    intro before whole
    rw [allocateList_append]
    exact allocateList_singleton_fills right.whole _ (left.operands op before whole)
  have whole : (allocate (.chain op (first.operandsFor op ++ [second]) span)).Fills :=
    operands.bind fun _ => addExpr_fills nofun
  refine ⟨whole, fun outer => ?_⟩
  -- A chain of the same operator is continued, so its operands are added without it.
  by_cases same : op = outer
  · simpa only [operandsFor, same, ite_true] using operands
  · simpa only [operandsFor, same, ite_false] using allocateList_singleton_fills whole

mutual

theorem ofSource_whole (source : Source.Expr) (filled : source.outline.Every Filled) :
    (ofSource source).Whole := by
  cases source with
  | missing => exact absurd filled.self id
  | bool value span => cases value <;> exact .alone (addExpr_fills nofun) (fun _ => rfl)
  | name | number | string | char | null | this | lambda =>
    exact .alone (addExpr_fills nofun) (fun _ => rfl)
  | binary op first second span =>
    have first := ofSource_whole first (filled.of_mem List.mem_cons_self)
    have second := ofSource_whole second (filled.of_mem (.tail _ List.mem_cons_self))
    exact .chain first second
  | field inner | unary _ inner | instanceOf inner | paren inner | methodRef inner =>
    have inner := ofSource_whole inner (filled.of_mem List.mem_cons_self)
    exact .alone (inner.whole.bind fun _ => addExpr_fills nofun) (fun _ => rfl)
  | cast type inner =>
    have inner := ofSource_whole inner (filled.of_mem (.tail _ List.mem_cons_self))
    exact .alone (inner.whole.bind fun _ => addExpr_fills nofun) (fun _ => rfl)
  | new type arguments span =>
    have arguments := ofSourceList_fills arguments fun _ member => filled.of_mem (.tail _ member)
    exact .alone (arguments.bind fun _ => addExpr_fills nofun) (fun _ => rfl)
  | call callee arguments span =>
    have callee := ofSource_whole callee (filled.of_mem List.mem_cons_self)
    have arguments := ofSourceList_fills arguments fun _ member => filled.of_mem (.tail _ member)
    exact .alone (callee.whole.bind fun _ => arguments.bind fun _ => addExpr_fills nofun)
      (fun _ => rfl)
  | index first second | assign first second =>
    have first := ofSource_whole first (filled.of_mem List.mem_cons_self)
    have second := ofSource_whole second (filled.of_mem (.tail _ List.mem_cons_self))
    exact .alone (first.whole.bind fun _ => second.whole.bind fun _ => addExpr_fills nofun)
      (fun _ => rfl)
  | conditional condition whenTrue whenFalse span =>
    have condition := ofSource_whole condition (filled.of_mem List.mem_cons_self)
    have whenTrue := ofSource_whole whenTrue (filled.of_mem (.tail _ List.mem_cons_self))
    have whenFalse :=
      ofSource_whole whenFalse (filled.of_mem (.tail _ (.tail _ List.mem_cons_self)))
    exact .alone (condition.whole.bind fun _ => whenTrue.whole.bind fun _ =>
      whenFalse.whole.bind fun _ => addExpr_fills nofun) (fun _ => rfl)

theorem ofSourceList_fills (sources : List Source.Expr)
    (filled : ∀ part ∈ Source.Expr.outlineAll sources, part.Every Filled) :
    (allocateList (ofSourceWithList operandsFor sources)).Fills := by
  cases sources with
  | nil => exact .pure
  | cons source sources =>
    obtain ⟨first, others⟩ := List.forall_mem_cons.mp filled
    exact (ofSource_whole source first).whole.bind fun _ =>
      (ofSourceList_fills sources others).bind fun _ => .pure

end

theorem ofSourceOption_fills (source : Option Source.Expr)
    (filled : ∀ part ∈ Source.Expr.outlineOption source, part.Every Filled) :
    (allocateOption (source.map (ofSourceWith operandsFor))).Fills := by
  cases source with
  | none => exact .pure
  | some source =>
    have whole := ofSource_whole source (filled _ (List.mem_singleton_self _))
    exact whole.whole.bind fun _ => .pure

end Expr

namespace Stmt

mutual

theorem ofSource_fills (source : Source.Stmt) (filled : source.outline.Every Filled) :
    (ofSource source).allocate.Fills := by
  cases source with
  | skipped | empty => exact addStmt_fills _
  | expr value | throws value =>
    have value := Expr.ofSource_whole value (filled.of_mem List.mem_cons_self)
    exact value.whole.bind fun _ => addStmt_fills _
  | returns value =>
    have value := Expr.ofSourceOption_fills value fun _ member => filled.of_mem member
    exact value.bind fun _ => addStmt_fills _
  | «local» _ _ _ init =>
    have init := Expr.ofSourceOption_fills init fun _ member =>
      filled.of_mem (.tail _ (.tail _ member))
    exact init.bind fun _ => addStmt_fills _
  | block statements span =>
    have statements := ofSourceList_fills statements fun _ member => filled.of_mem member
    exact statements.bind fun _ => addStmt_fills _
  | assert condition message span =>
    have condition := Expr.ofSource_whole condition (filled.of_mem List.mem_cons_self)
    have message := Expr.ofSourceOption_fills message fun _ member =>
      filled.of_mem (.tail _ member)
    exact condition.whole.bind fun _ => message.bind fun _ => addStmt_fills _
  | «while» condition body span =>
    have condition := Expr.ofSource_whole condition (filled.of_mem List.mem_cons_self)
    have body := ofSource_fills body (filled.of_mem (.tail _ List.mem_cons_self))
    exact condition.whole.bind fun _ => body.bind fun _ => addStmt_fills _
  | ifElse condition whenTrue whenFalse span =>
    have condition := Expr.ofSource_whole condition (filled.of_mem List.mem_cons_self)
    have whenTrue := ofSource_fills whenTrue (filled.of_mem (.tail _ List.mem_cons_self))
    have whenFalse := ofSourceOption_fills whenFalse fun _ member =>
      filled.of_mem (.tail _ (.tail _ member))
    exact condition.whole.bind fun _ => whenTrue.bind fun _ => whenFalse.bind fun _ =>
      addStmt_fills _

theorem ofSourceOption_fills (source : Option Source.Stmt)
    (filled : ∀ part ∈ Source.Stmt.outlineOption source, part.Every Filled) :
    (allocateOption (ofSourceWithOption Expr.operandsFor source)).Fills := by
  cases source with
  | none => exact .pure
  | some source =>
    have whole := ofSource_fills source (filled _ (List.mem_singleton_self _))
    exact whole.bind fun _ => .pure

theorem ofSourceList_fills (sources : List Source.Stmt)
    (filled : ∀ part ∈ Source.Stmt.outlineAll sources, part.Every Filled) :
    (allocateList (ofSourceWithList Expr.operandsFor sources)).Fills := by
  cases sources with
  | nil => exact .pure
  | cons source sources =>
    obtain ⟨first, others⟩ := List.forall_mem_cons.mp filled
    exact (ofSource_fills source first).bind fun _ =>
      (ofSourceList_fills sources others).bind fun _ => .pure

end

end Stmt
end Tree

open Source.Outline

theorem Body.ofSource_whole (block : Source.Block) (filled : block.outline.Every Filled) :
    (Body.ofSource block).Whole := by
  refine Tree.Stmt.ofSource_fills block.toStmt filled .empty fun _ member => ?_
  simp [Arenas.empty] at member

namespace Method

/-- The bodies of the methods are whole. -/
def AllWhole (methods : List Method) : Prop :=
  ∀ method ∈ methods, ∀ body ∈ method.body, body.Whole

theorem ofSource_whole (decl : Source.MethodDecl) (owner : Option String)
    (filled : decl.outline.Every Filled) : ∀ body ∈ (ofSource decl owner).body, body.Whole := by
  intro body lowered
  obtain ⟨block, isBody, rfl⟩ := Option.map_eq_some_iff.mp lowered
  refine Body.ofSource_whole block (filled.of_mem ?_)
  simp [parts, Source.MethodDecl.outline, isBody]

mutual

theorem ofMember_whole (owner : String) (member : Source.Member)
    (filled : member.outline.Every Filled) : AllWhole (ofMember owner member) := by
  cases member with
  | method decl =>
    exact List.forall_mem_singleton.mpr (ofSource_whole decl (some owner) filled)
  | type header members =>
    have body := filled.of_mem List.mem_cons_self
    exact ofMembers_whole _ members fun _ part => body.of_mem part
  | field | constructor | initializer => exact List.forall_mem_nil _

theorem ofMembers_whole (owner : String) (members : List Source.Member)
    (filled : ∀ part ∈ Source.Member.outlineAll members, part.Every Filled) :
    AllWhole (ofMembers owner members) := by
  cases members with
  | nil => exact List.forall_mem_nil _
  | cons member members =>
    obtain ⟨first, others⟩ := List.forall_mem_cons.mp filled
    exact List.forall_mem_append.mpr
      ⟨ofMember_whole owner member first, ofMembers_whole owner members others⟩

end

theorem ofUnit_whole (unit : Source.CompilationUnit) (filled : unit.outline.Every Filled) :
    AllWhole (ofUnit unit) := by
  intro method lowered
  obtain ⟨decl, isType, lowered⟩ := List.mem_flatMap.mp lowered
  have header := filled.of_mem (List.mem_map_of_mem isType)
  have body := header.of_mem List.mem_cons_self
  refine ofMembers_whole decl.header.name decl.members (fun part member => ?_) method lowered
  rw [Source.Member.outlineAll_eq] at member
  exact body.of_mem member

end Method

open Source

/-- What is read without errors has no hole and no empty name, and what it becomes has no
missing expression. -/
theorem parse_clean_whole (text : String) :
    ((parse text).errors = [] → (parse text).value.outline.Every Filled ∧
        Method.AllWhole (Method.ofUnit (parse text).value)) ∧
      ((parseMethod text).errors = [] → ∃ decl ∈ (parseMethod text).value,
        decl.outline.Every Filled ∧
          ∀ owner, ∀ body ∈ (Method.ofSource decl owner).body, body.Whole) ∧
      ∀ offset,
        ((parseBlock text offset).errors = [] →
          (parseBlock text offset).value.outline.Every Filled ∧
            (Body.ofSource (parseBlock text offset).value).Whole) ∧
        ((parseExpression text offset).errors = [] →
          (parseExpression text offset).value.outline.Every Filled ∧
            (Tree.Expr.ofSource (parseExpression text offset).value).allocate.Fills) := by
  refine ⟨fun clean => ?_, fun clean => ?_, fun offset => ⟨fun clean => ?_, fun clean => ?_⟩⟩
  · have filled := (parse_read text).filled clean _ (List.mem_singleton_self _)
    exact ⟨filled, Method.ofUnit_whole _ filled⟩
  · -- Without errors there is a method, and it is the one that has been read.
    obtain ⟨decl, yielded⟩ := exists_of_parseMethod clean
    have filled : decl.outline.Every Filled := by
      refine (parseMethod_read text).filled clean _ ?_
      rw [yielded]
      exact List.mem_singleton_self _
    exact ⟨decl, yielded, filled, fun owner => Method.ofSource_whole decl owner filled⟩
  · have filled := (parseBlock_read text offset).filled clean _ (List.mem_singleton_self _)
    exact ⟨filled, Body.ofSource_whole _ filled⟩
  · have filled := (parseExpression_read text offset).filled clean _ (List.mem_singleton_self _)
    exact ⟨filled, (Tree.Expr.ofSource_whole _ filled).whole⟩

theorem parse_clean_whole_guarded :
    Method.AllWhole (Method.ofUnit (parse "class A { int b(C c) { return c::d; } }").value) ∧
      (∃ decl ∈ (parseMethod "@A(b) int c(D d) { return (E) d; }").value,
        decl.outline.Every Filled ∧
          ∀ owner, ∀ body ∈ (Method.ofSource decl owner).body, body.Whole) ∧
      (Body.ofSource (parseBlock "{ int a = b; if (a < c) throw d; }" 7).value).Whole ∧
      (parseExpression "a.b(c)[d] ? -e : f -> g" 7).value.outline.Every Filled :=
  ⟨((parse_clean_whole _).1 (by decide +kernel)).2, (parse_clean_whole _).2.1 (by decide +kernel),
    (((parse_clean_whole _).2.2 7).1 (by decide +kernel)).2,
    (((parse_clean_whole _).2.2 7).2 (by decide +kernel)).1⟩

end MethodContracts
