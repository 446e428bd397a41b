import MethodContracts.Method.OfSource
import MethodContracts.Proofs.Source.Outline

/-!
# Where methods and blocks are declared

A unit has the members of its types and of the types inside them. Each of its methods is made
from one of these, so what is known of every member, or of every node of the unit, is known of what
the methods are made from.
-/
namespace MethodContracts

namespace Source

/-- The second member is the first one, or is declared inside it. -/
inductive Member.Encloses : Member → Member → Prop where
  | self (member : Member) : Encloses member member
  | type {header : TypeHeader} {members : List Member} {member inner : Member}
    (listed : member ∈ members) (encloses : Encloses member inner) :
    Encloses (.type header members) inner

/-- The block that a member has as its body. -/
def Member.block? : Member → Option Block
  | .method decl => decl.body
  | .constructor decl => some decl.body
  | .initializer decl => some decl.body
  | .field _ | .type _ _ => none

/-- The member is declared in the unit, at any depth. -/
def CompilationUnit.HasMember (unit : CompilationUnit) (inner : Member) : Prop :=
  ∃ decl ∈ unit.types, ∃ member ∈ decl.members, member.Encloses inner

open Outline

variable {holds : Outline → Prop} {inner : Member}

theorem Member.Encloses.every {member : Member} (encloses : member.Encloses inner)
    (every : member.outline.Every holds) : inner.outline.Every holds := by
  induction encloses with
  | self => exact every
  | @type header members member inner listed _ ih =>
    refine ih ((every.of_mem List.mem_cons_self).of_mem ?_)
    rw [Member.outlineAll_eq]
    exact List.mem_map_of_mem listed

/-- What holds of all nodes of a unit holds of all nodes of its members. -/
theorem CompilationUnit.HasMember.every {unit : CompilationUnit} (has : unit.HasMember inner)
    (every : unit.outline.Every holds) : inner.outline.Every holds := by
  obtain ⟨decl, isType, member, listed, encloses⟩ := has
  have body := (every.of_mem (List.mem_map_of_mem isType)).of_mem List.mem_cons_self
  exact encloses.every (body.of_mem (List.mem_map_of_mem listed))

end Source

namespace Method

open Source (Member)

mutual

theorem encloses_of_mem_ofMember {method : Method} (owner : String) : (member : Member) →
    method ∈ ofMember owner member →
      ∃ decl owner, member.Encloses (.method decl) ∧ method = ofSource decl (some owner)
  | .field _, found | .constructor _, found | .initializer _, found => by cases found
  | .method decl, found => ⟨decl, owner, .self _, List.mem_singleton.mp found⟩
  | .type _ members, found => by
    obtain ⟨decl, owner, ⟨member, listed, encloses⟩, made⟩ :=
      encloses_of_mem_ofMembers _ members found
    exact ⟨decl, owner, .type listed encloses, made⟩

theorem encloses_of_mem_ofMembers {method : Method} (owner : String) : (members : List Member) →
    method ∈ ofMembers owner members →
      ∃ decl owner, (∃ member ∈ members, member.Encloses (.method decl)) ∧
        method = ofSource decl (some owner)
  | [], found => by cases found
  | member :: members, found => by
    rcases List.mem_append.mp found with first | later
    · obtain ⟨decl, owner, encloses, made⟩ := encloses_of_mem_ofMember owner member first
      exact ⟨decl, owner, ⟨member, List.mem_cons_self, encloses⟩, made⟩
    · obtain ⟨decl, owner, ⟨other, listed, encloses⟩, made⟩ :=
        encloses_of_mem_ofMembers owner members later
      exact ⟨decl, owner, ⟨other, List.mem_cons_of_mem _ listed, encloses⟩, made⟩

end

/-- Every method of a unit is made from a declaration in it. -/
theorem hasMember_of_mem_ofUnit {method : Method} {unit : Source.CompilationUnit}
    (found : method ∈ ofUnit unit) :
    ∃ decl owner, unit.HasMember (.method decl) ∧ method = ofSource decl (some owner) := by
  obtain ⟨type, isType, found⟩ := List.mem_flatMap.mp found
  obtain ⟨decl, owner, encloses, made⟩ := encloses_of_mem_ofMembers _ _ found
  exact ⟨decl, owner, ⟨type, isType, encloses⟩, made⟩

end Method
end MethodContracts
