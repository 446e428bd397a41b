import Mathlib.Data.List.Forall2
import MethodContracts.Proofs.Inference.Layout
import MethodContracts.Proofs.Tree.Allocation
import MethodContracts.Proofs.Tree.Relocation

/-!
# Contracts at other places

Contracts do not depend on spans. So the methods of two units have the same contracts, one by
one, if the units are the same once their places are moved.
-/
namespace MethodContracts.Method

variable (move : Nat → Nat)

/-- The same contracts are declared and the same are inferred, so the same are chosen. -/
structure SameContracts (left right : Method) : Prop where
  declared : left.declaredContracts? = right.declaredContracts?
  inferred : ∀ maxStates, left.inferContracts maxStates = right.inferContracts maxStates
  chosen : ∀ config, left.contracts config = right.contracts config

theorem SameContracts.of_params {left right : Method} (params : left.params = right.params)
    (declared : left.declaredContracts? = right.declaredContracts?)
    (inferred : ∀ maxStates, left.inferContracts maxStates = right.inferContracts maxStates) :
    SameContracts left right where
  declared := declared
  inferred := inferred
  chosen config := by
    have usable : left.usableContracts? = right.usableContracts? := by
      rw [usableContracts?, usableContracts?, declared, params]
    rw [contracts, contracts, usable, inferred]

theorem SameContracts.trans {first second third : Method} (left : SameContracts first second)
    (right : SameContracts second third) : SameContracts first third where
  declared := left.declared.trans right.declared
  inferred maxStates := (left.inferred maxStates).trans (right.inferred maxStates)
  chosen config := (left.chosen config).trans (right.chosen config)

theorem SameContracts.symm {left right : Method} (same : SameContracts left right) :
    SameContracts right left where
  declared := same.declared.symm
  inferred maxStates := (same.inferred maxStates).symm
  chosen config := (same.chosen config).symm

private theorem declaredContracts?_moved (method : Method) :
    (method.moved move).declaredContracts? = method.declaredContracts? := by
  have noted : (method.moved move).contractAnnotation? =
      method.contractAnnotation?.map (·.moved move) := by
    rw [contractAnnotation?, moved, List.find?_map]
    rfl
  rw [declaredContracts?, declaredContracts?, noted]
  cases method.contractAnnotation? <;> rfl

private theorem inferContracts_ofSource_moved (decl : Source.MethodDecl) (owner : Option String)
    (maxStates : Nat) :
    (ofSource (decl.moved move) owner).inferContracts maxStates =
      (ofSource decl owner).inferContracts maxStates := by
  cases present : decl.body with
  | none =>
    have absent : (ofSource decl owner).body = none := by rw [ofSource, present]; rfl
    have absent' : (ofSource (decl.moved move) owner).body = none := by
      rw [ofSource, Source.MethodDecl.moved, present]; rfl
    simp only [inferContracts, absent, absent']
  | some block =>
    have isBody : (ofSource decl owner).body = some (Body.ofSource block) := by
      rw [ofSource, present]; rfl
    have isBody' : (ofSource (decl.moved move) owner).body =
        some (Body.ofSource (block.moved move)) := by
      rw [ofSource, Source.MethodDecl.moved, present]; rfl
    have params : (ofSource (decl.moved move) owner).params = (ofSource decl owner).params := by
      rw [ofSource_moved]; rfl
    obtain ⟨valid, tree⟩ := (Tree.Stmt.ofSource block.toStmt).toBody_valid
    obtain ⟨valid', tree'⟩ := (Tree.Stmt.ofSource (block.moved move).toStmt).toBody_valid
    have same : (Body.ofSource (block.moved move)).tree.statements.map Tree.Stmt.withoutSpans =
        (Body.ofSource block).tree.statements.map Tree.Stmt.withoutSpans := by
      rw [← Tree.Stmt.statements_withoutSpans, ← Tree.Stmt.statements_withoutSpans, Body.ofSource,
        Body.ofSource, tree, tree', Source.Block.toStmt_moved, Tree.Stmt.ofSource_moved,
        Tree.Stmt.withoutSpans_moved]
    rw [inferContracts_eq _ _ isBody valid, inferContracts_eq _ _ isBody' valid', params,
      ← Tree.Stmt.evalAll_withoutSpans, same, Tree.Stmt.evalAll_withoutSpans]

/-- Wherever a method stands in its text, it has the same contracts. -/
private theorem sameContracts_moved (decl : Source.MethodDecl) (owner : Option String) :
    SameContracts ((ofSource decl owner).moved move) (ofSource decl owner) := by
  refine .of_params rfl (declaredContracts?_moved move _) fun maxStates => ?_
  rw [← ofSource_moved, inferContracts_ofSource_moved]

theorem sameContracts_of_moved_eq {decl decl' : Source.MethodDecl}
    (same : decl.moved move = decl'.moved move) (owner : Option String) :
    SameContracts (ofSource decl owner) (ofSource decl' owner) := by
  have left := (sameContracts_moved move decl owner).symm
  rw [← ofSource_moved, same, ofSource_moved] at left
  exact left.trans (sameContracts_moved move decl' owner)

mutual

theorem exists_of_mem_ofMember {method : Method} (owner : String) : (member : Source.Member) →
    method ∈ ofMember owner member → ∃ decl owner, method = ofSource decl owner
  | .field _, found | .constructor _, found | .initializer _, found => by cases found
  | .method decl, found => ⟨decl, some owner, List.mem_singleton.mp found⟩
  | .type _ members, found => exists_of_mem_ofMembers _ members found

theorem exists_of_mem_ofMembers {method : Method} (owner : String) :
    (members : List Source.Member) → method ∈ ofMembers owner members →
      ∃ decl owner, method = ofSource decl owner
  | [], found => by cases found
  | member :: members, found => by
    rw [ofMembers] at found
    rcases List.mem_append.mp found with first | later
    · exact exists_of_mem_ofMember owner member first
    · exact exists_of_mem_ofMembers owner members later

end

private theorem exists_of_mem_ofUnit {method : Method} {unit : Source.CompilationUnit}
    (found : method ∈ ofUnit unit) : ∃ decl owner, method = ofSource decl owner := by
  obtain ⟨decl, _, member⟩ := List.mem_flatMap.mp found
  exact exists_of_mem_ofMembers _ _ member

private theorem sameContracts_of_mem {method : Method} {unit : Source.CompilationUnit}
    (found : method ∈ ofUnit unit) : SameContracts (method.moved move) method := by
  obtain ⟨decl, owner, rfl⟩ := exists_of_mem_ofUnit found
  exact sameContracts_moved move decl owner

private theorem forall₂_of_map_eq {f : Method → Method} {methods methods' : List Method}
    (same : methods.map f = methods'.map f)
    (each : ∀ method ∈ methods, SameContracts (f method) method)
    (each' : ∀ method ∈ methods', SameContracts (f method) method) :
    List.Forall₂ SameContracts methods methods' := by
  induction methods generalizing methods' with
  | nil =>
    obtain rfl := List.map_eq_nil_iff.mp same.symm
    exact .nil
  | cons method methods ih =>
    obtain ⟨method', methods', rfl, first, others⟩ := List.map_eq_cons_iff.mp same.symm
    rw [List.forall_mem_cons] at each each'
    have second := each'.1
    rw [first] at second
    exact .cons (each.1.symm.trans second) (ih others.symm each.2 each'.2)

/-- Units that are the same once their places are moved have methods with the same contracts. -/
theorem ofUnit_sameContracts {unit unit' : Source.CompilationUnit}
    (same : unit.moved move = unit'.moved move) :
    List.Forall₂ SameContracts (ofUnit unit) (ofUnit unit') := by
  have lists : (ofUnit unit).map (moved move) = (ofUnit unit').map (moved move) := by
    rw [← ofUnit_moved, same, ofUnit_moved]
  exact forall₂_of_map_eq lists (fun _ => sameContracts_of_mem move)
    fun _ => sameContracts_of_mem move

end MethodContracts.Method
