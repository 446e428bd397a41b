import Mathlib.Data.List.Nodup
import MethodContracts.Method.Basic
import MethodContracts.Proofs.Body.Validity

/-!
# Methods with other names and in another order

A method is renamed by a function on names, in its parameters and at the names in its body.
Its parameters are put in another order by a list of their places, and so is anything else
that has an item for each parameter.
-/
namespace MethodContracts

/-! ## Reordered lists -/

/-- The items at these places, in the order of the places. -/
def pick {α : Type} (order : List Nat) (items : List α) : List α :=
  order.filterMap (items[·]?)

section Pick

variable {α : Type} {order : List Nat} {items : List α}

private theorem pick_range (items : List α) : pick (List.range items.length) items = items := by
  induction items with
  | nil => rfl
  | cons item items ih =>
    rw [List.length_cons, List.range_succ_eq_map, pick, List.filterMap_cons, List.filterMap_map]
    exact congrArg (item :: ·) ih

/-- Picking every item once gives the items in another order. -/
theorem pick_perm (whole : order.Perm (List.range items.length)) :
    (pick order items).Perm items := by
  have picked : (pick order items).Perm (pick (List.range items.length) items) :=
    whole.filterMap _
  rwa [pick_range] at picked

private theorem pick_getElem? (inside : ∀ place ∈ order, place < items.length) (number : Nat) :
    (pick order items)[number]? = order[number]?.bind (items[·]?) := by
  induction order generalizing number with
  | nil => rfl
  | cons place order ih =>
    obtain ⟨here, later⟩ := List.forall_mem_cons.mp inside
    rw [pick, List.filterMap_cons_some (List.getElem?_eq_getElem here)]
    cases number with
    | zero => simp [here]
    | succ number => exact ih later number

private theorem lt_of_whole (whole : order.Perm (List.range items.length)) :
    ∀ place ∈ order, place < items.length :=
  fun _ member => List.mem_range.mp (whole.mem_iff.mp member)

/-- What was at a place is found where the place stands in the order. -/
theorem pick_idxOf (whole : order.Perm (List.range items.length)) {place : Nat}
    (inside : place < items.length) : (pick order items)[order.idxOf place]? = items[place]? := by
  have member : place ∈ order := whole.mem_iff.mpr (List.mem_range.mpr inside)
  rw [pick_getElem? (lt_of_whole whole), List.getElem?_idxOf member, Option.bind_some]

theorem pick_set (whole : order.Perm (List.range items.length)) {place : Nat}
    (inside : place < items.length) (item : α) :
    pick order (items.set place item) = (pick order items).set (order.idxOf place) item := by
  have member : place ∈ order := whole.mem_iff.mpr (List.mem_range.mpr inside)
  have still : order.Perm (List.range (items.set place item).length) := by
    rwa [List.length_set]
  apply List.ext_getElem?
  intro number
  rw [pick_getElem? (lt_of_whole still)]
  by_cases same : order.idxOf place = number
  · -- The place itself: both sides have the new item there.
    subst same
    have before : order.idxOf place < (pick order items).length := by
      rw [(pick_perm whole).length_eq, ← List.length_range (n := items.length),
        ← whole.length_eq]
      exact List.idxOf_lt_length_of_mem member
    rw [List.getElem?_idxOf member, Option.bind_some, List.getElem?_set_self inside,
      List.getElem?_set_self before]
  · rw [List.getElem?_set_ne same, pick_getElem? (lt_of_whole whole)]
    cases found : order[number]? with
    | none => rfl
    | some other =>
      -- Every place is picked once, so another number is for another place.
      have apart : place ≠ other := by
        rintro rfl
        obtain ⟨bound, rfl⟩ := List.getElem?_eq_some_iff.mp found
        exact same ((whole.nodup_iff.mpr List.nodup_range).idxOf_getElem number bound)
      simp only [Option.bind_some, List.getElem?_set_ne apart]

private theorem idxOf?_eq_some_of_nodup {words : List String} (distinct : words.Nodup)
    {word : String}
    {place : Nat} (found : words[place]? = some word) : words.idxOf? word = some place := by
  obtain ⟨bound, same⟩ := List.getElem?_eq_some_iff.mp found
  refine List.idxOf?_eq_some_iff.mpr ⟨bound, same, ?_⟩
  intro other before equal
  have one := (List.Nodup.getElem_inj_iff distinct).mp (equal.trans same.symm)
  omega

/-- A word among words that differ is found where its place stands in the order. -/
theorem idxOf?_pick {words : List String} (whole : order.Perm (List.range words.length))
    (distinct : words.Nodup) (word : String) :
    (pick order words).idxOf? word = (words.idxOf? word).map (order.idxOf ·) := by
  have same := pick_perm whole
  cases found : words.idxOf? word with
  | none =>
    have absent := List.idxOf?_eq_none_iff.mp found
    exact List.idxOf?_eq_none_iff.mpr fun member => absent (same.mem_iff.mp member)
  | some place =>
    -- The first place with the word is the only one, before and after.
    obtain ⟨inside, here, _⟩ := List.idxOf?_eq_some_iff.mp found
    apply idxOf?_eq_some_of_nodup (same.nodup_iff.mpr distinct)
    rw [pick_idxOf whole inside, List.getElem?_eq_getElem inside, here]

end Pick

/-! ## Renamed and reordered methods -/

/-- The node with another name, if it is a name. -/
def Expr.renamed (rename : String → String) : Expr → Expr
  | .name word span => .name (rename word) span
  | expr => expr

/-- The body with another name at each name that is an expression. -/
def Body.renamed (rename : String → String) (body : Body) : Body :=
  { body with exprs := body.exprs.map (Expr.renamed rename) }

/-- The method with its parameters renamed and the names in its body with them. -/
def Method.renamed (rename : String → String) (method : Method) : Method :=
  { method with
    params := method.params.map fun param => { param with name := rename param.name }
    body := method.body.map (Body.renamed rename) }

/-- The method with its parameters in another order. -/
def Method.reordered (order : List Nat) (method : Method) : Method :=
  { method with params := pick order method.params }

/-- The name is an expression of the body. -/
def Body.Says (body : Body) (word : String) : Prop := ∃ span, .name word span ∈ body.exprs

private theorem Expr.children_renamed (rename : String → String) (expr : Expr) :
    (expr.renamed rename).children = expr.children := by
  cases expr <;> rfl

namespace Body

variable (rename : String → String) {body : Body}

theorem expr?_renamed (id : ExprId) (expr : Expr) (found : body.expr? id = some expr) :
    (body.renamed rename).expr? id = some (expr.renamed rename) := by
  simp only [expr?, renamed, Array.getElem?_map] at found ⊢
  rw [found, Option.map_some]

theorem Valid.renamed (valid : body.Valid) : (body.renamed rename).Valid where
  root_lt := valid.root_lt
  stmt_lt := valid.stmt_lt
  stmt_expr_lt parent stmt found child member := by
    have inside := valid.stmt_expr_lt parent stmt found child member
    simpa only [Body.renamed, Array.size_map] using inside
  expr_lt parent expr found child member := by
    simp only [Body.renamed, Array.getElem?_map, Option.map_eq_some_iff] at found
    obtain ⟨origin, foundOrigin, rfl⟩ := found
    rw [origin.children_renamed rename] at member
    exact valid.expr_lt parent origin foundOrigin child member

/-- Names that stay the same leave the body as it is. -/
theorem renamed_id (body : Body) : body.renamed id = body := by
  have same : Expr.renamed id = id := by
    funext expr
    cases expr <;> rfl
  simp only [renamed, same, Array.map_id]

end Body
end MethodContracts
