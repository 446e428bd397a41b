import MethodContracts.Json.Decode

/-!
# What is written is read

The laws of the decoders on what the encoders write: numbers, lists, values that may be
missing, and the fields of an object whose names are distinct, which are found whatever
their order.
-/
namespace MethodContracts.Json

variable {α : Type}

@[simp]
theorem required_some (decode : Json → Option α) (json : Json) :
    required decode (some json) = decode json := by
  rw [required, Option.bind_some]

@[simp]
theorem withDefault_some (default : α) (decode : Json → Option α) (json : Json) :
    withDefault default decode (some json) = decode json := by
  rw [withDefault]

theorem natBelow?_nat {bound n : Nat} (below : n < bound) : natBelow? bound (.nat n) = some n := by
  have inside : (0 : Int) ≤ n ∧ (n : Int) < bound := by omega
  simp only [nat, natBelow?, inside, and_self, ite_true, Int.toNat_natCast]

theorem listOf?_ofList {encode : α → Json} {decode : Json → Option α} (values : List α)
    (each : ∀ value ∈ values, decode (encode value) = some value) :
    listOf? decode (.ofList encode values) = some values := by
  simp only [ofList, listOf?]
  induction values with
  | nil => rfl
  | cons value values ih =>
    have first := each value List.mem_cons_self
    have rest := ih fun other member => each other (List.mem_cons_of_mem _ member)
    simp only [List.map_cons, List.mapM_cons, first, rest, Option.pure_def, Option.bind_eq_bind,
      Option.bind_some]

/-- A value is told from a missing one if it is not written as null. -/
theorem optional_ofOption {encode : α → Json} {decode : Json → Option α} (value : Option α)
    (present : ∀ inner ∈ value, encode inner ≠ .null)
    (each : ∀ inner ∈ value, decode (encode inner) = some inner) :
    optional decode (some (.ofOption encode value)) = some value := by
  cases value with
  | none => rfl
  | some inner =>
    have notNull := present inner rfl
    rw [ofOption]
    unfold optional
    split
    next isNull => exact absurd (Option.some.inj isNull) notNull
    next same =>
      cases same
      rw [each inner rfl]
      rfl
    next impossible => cases impossible

/-! ## Fields of objects -/

/-- Of members with distinct names, one is found by its name. -/
private theorem member?_eq_lookup (members : List (String × Json))
    (distinct : (members.map (·.1)).Nodup) (name : String) :
    member? members name = some (members.lookup name) := by
  induction members with
  | nil => rfl
  | cons first members ih =>
    obtain ⟨key, value⟩ := first
    rw [List.map_cons, List.nodup_cons] at distinct
    by_cases same : key = name
    · subst same
      -- No later member has the name.
      have others : members.filter (fun member => member.1 == key) = [] := by
        rw [List.filter_eq_nil_iff]
        intro member found
        have listed : member.1 ∈ members.map (·.1) := List.mem_map_of_mem found
        rw [beq_iff_eq]
        exact fun again => distinct.1 (again ▸ listed)
      simp only [member?, List.filter_cons, beq_self_eq_true, ite_true, others,
        List.lookup_cons_self]
    · have later := ih distinct.2
      have passed : (name == key) = false := beq_false_of_ne (Ne.symm same)
      rw [List.lookup_cons, passed]
      simp only [member?, List.filter_cons, beq_iff_eq, same, ite_false] at later ⊢
      exact later

theorem fields?_object (names : List String) (members : List (String × Json))
    (distinct : (members.map (·.1)).Nodup) :
    fields? names (.object members) = some (names.map (List.lookup · members)) := by
  simp only [fields?]
  induction names with
  | nil => rfl
  | cons name names ih =>
    simp only [List.mapM_cons, member?_eq_lookup members distinct, ih, List.map_cons,
      Option.pure_def, Option.bind_eq_bind, Option.bind_some]

/-- The fields of an object whose members are these fields, in order. -/
theorem fields?_members (names : List String) (members : List (String × Json))
    (same : members.map (·.1) = names) (distinct : names.Nodup) :
    fields? names (.object members) = some (members.map fun member => some member.2) := by
  subst same
  rw [fields?_object _ members distinct]
  congr 1
  induction members with
  | nil => rfl
  | cons first members ih =>
    obtain ⟨key, value⟩ := first
    rw [List.map_cons, List.nodup_cons] at distinct
    -- What is found among the others is not found at the front.
    have passed : (members.map (·.1)).map (List.lookup · ((key, value) :: members)) =
        (members.map (·.1)).map (List.lookup · members) := by
      apply List.map_congr_left
      intro name listed
      have other : (name == key) = false := beq_false_of_ne fun same => distinct.1 (same ▸ listed)
      rw [List.lookup_cons, other]
    rw [List.map_cons, List.map_cons, List.lookup_cons_self, passed, ih distinct.2, List.map_cons]

/-- The kind of an object is read from its member `kind`, and its other members are left. -/
theorem tagged?_object (form : KindForm) (kinds : List String) (kind : String)
    (members : List (String × Json)) (distinct : ("kind" :: members.map (·.1)).Nodup) :
    tagged? form kinds (.object (("kind", .string kind) :: members)) =
      some (kind, .object members) := by
  have others : (("kind", Json.string kind) :: members).filter (fun member => member.1 != "kind") =
      members := by
    rw [List.filter_cons_of_neg (by simp), List.filter_eq_self]
    intro member found
    have listed : member.1 ∈ members.map (·.1) := List.mem_map_of_mem found
    rw [bne_iff_ne]
    exact fun again => (List.nodup_cons.mp distinct).1 (again ▸ listed)
  have found : member? (("kind", .string kind) :: members) "kind" = some (some (.string kind)) := by
    rw [member?_eq_lookup (("kind", .string kind) :: members) distinct, List.lookup_cons_self]
  simp only [tagged?, found, kind?, others, Option.pure_def, Option.bind_eq_bind, Option.bind_some]

end MethodContracts.Json
