import MethodContracts.Proofs.Json.Reading

/-!
# Layouts of JSON values

On one line or on many, a value is written as its tokens with white space between them, so
it is read back from either layout.
-/
namespace MethodContracts.Json

/-- What can be read back: nesting is at most this deep, and all numbers are kept as
integers. -/
def Plain : Nat → Json → Prop
  | depth + 1, .array items => ∀ item ∈ items, Plain depth item
  | depth + 1, .object members => ∀ member ∈ members, Plain depth member.2
  | _, .int n => Fits n
  | _, .null | _, .bool _ | _, .string _ => True
  | _, _ => False

section

variable {α : Type} {piece : α → List Char → Prop}

/-- White space may be added around the texts. -/
def Pads (piece : α → List Char → Prop) : Prop :=
  ∀ value cs before after, Reader.Blank before → Reader.Blank after → piece value cs →
    piece value (before ++ cs ++ after)

private theorem pads_padded (writes : α → List Char → Prop) : Pads (Padded writes) := by
  rintro value _ before after beforeBlank afterBlank ⟨left, core, right, leftBlank, written,
    rightBlank, rfl⟩
  exact ⟨before ++ left, core, right ++ after, beforeBlank.append leftBlank,
    written, rightBlank.append afterBlank, by simp⟩

private theorem pads_member (writes : Json → List Char → Prop) : Pads (WritesMember writes) := by
  rintro member _ before after beforeBlank afterBlank ⟨left, between, text, leftBlank,
    betweenBlank, padded, rfl⟩
  have longer := pads_padded writes member.2 text [] after .nil afterBlank padded
  exact ⟨before ++ left, between, _, beforeBlank.append leftBlank,
    betweenBlank, longer, by simp⟩

/-- Lines with this text before each, commas between them, and the other text at the end. -/
def lines (before after : String) : List String → String
  | [] => ""
  | line :: others => before ++ ("," ++ before).intercalate (line :: others) ++ after

/-- Lines with the same white space before each and a comma between them. -/
private theorem separated_lines (pads : Pads piece) (write : α → String) {before after : String}
    (beforeBlank : Reader.Blank before.toList) (afterBlank : Reader.Blank after.toList)
    (first : α) (values : List α)
    (each : ∀ value ∈ first :: values, piece value (write value).toList) :
    Separated piece (first :: values)
      (before ++ ("," ++ before).intercalate ((first :: values).map write) ++ after).toList := by
  -- What ends the lines is white space behind the last piece.
  induction values generalizing first with
  | nil =>
    have padded := pads first _ _ _ beforeBlank afterBlank (each first List.mem_cons_self)
    simpa using Separated.last padded
  | cons second values ih =>
    have padded := pads first _ _ [] beforeBlank .nil
      (each first List.mem_cons_self)
    have others := ih second fun value member => each value (List.mem_cons_of_mem _ member)
    have written := Separated.more padded others
    simpa using written

private theorem listed_lines (pads : Pads piece) (write : α → String) {before after : String}
    (beforeBlank : Reader.Blank before.toList) (afterBlank : Reader.Blank after.toList)
    (values : List α) (each : ∀ value ∈ values, piece value (write value).toList) :
    Listed piece values (lines before after (values.map write)).toList := by
  cases values with
  | nil => exact Or.inl ⟨rfl, .nil⟩
  | cons first values =>
    exact Or.inr (separated_lines pads write beforeBlank afterBlank first values each)

end

/-- Items in a layout that writes each of them as one of its texts. -/
private theorem writes_array {depth : Nat} {items : List Json} {write : Json → String}
    {before after : String} (beforeBlank : Reader.Blank before.toList)
    (afterBlank : Reader.Blank after.toList)
    (each : ∀ item ∈ items, Writes depth item (write item).toList) :
    Writes (depth + 1) (.array items)
      ("[" ++ lines before after (items.map write) ++ "]").toList := by
  refine ⟨_, listed_lines (pads_padded (Writes depth)) write beforeBlank afterBlank items ?_,
    by simp⟩
  intro item member
  exact ⟨[], _, [], .nil, each item member, .nil, by simp⟩

/-- Members in a layout that writes each value as one of its texts. -/
private theorem writes_object {depth : Nat} {members : List (String × Json)} {write : Json → String}
    {before gap after : String} (beforeBlank : Reader.Blank before.toList)
    (gapBlank : Reader.Blank gap.toList) (afterBlank : Reader.Blank after.toList)
    (each : ∀ member ∈ members, Writes depth member.2 (write member.2).toList) :
    Writes (depth + 1) (.object members)
      ("\x7b" ++ lines before after
        (members.map fun member => quote member.1 ++ ":" ++ gap ++ write member.2) ++
          "\x7d").toList := by
  refine ⟨_, listed_lines (pads_member (Writes depth))
    (fun member => quote member.1 ++ ":" ++ gap ++ write member.2) beforeBlank afterBlank members
    ?_, by simp⟩
  intro member found
  have padded : Padded (Writes depth) member.2 (gap.toList ++ (write member.2).toList ++ []) :=
    ⟨_, _, [], gapBlank, each member found, .nil, rfl⟩
  exact ⟨[], [], _, .nil, .nil, padded, by simp⟩

private theorem writesScalar_compact {json : Json} (plain : Plain 0 json) :
    WritesScalar json json.compact.toList := by
  cases json with
  | null => exact rfl
  | bool value => cases value <;> exact rfl
  | int n => exact ⟨plain, rfl⟩
  | string text => exact rfl
  | decimal | array | object => exact plain.elim

private theorem compactItems_eq (items : List Json) : compactItems items = items.map compact := by
  induction items with
  | nil => rfl
  | cons item items ih => rw [compactItems, ih, List.map_cons]

private theorem compactMembers_eq (members : List (String × Json)) :
    compactMembers members =
      members.map fun member => quote member.1 ++ ":" ++ member.2.compact := by
  induction members with
  | nil => rfl
  | cons member members ih => rw [compactMembers, ih, List.map_cons]

private theorem compact_array (items : List Json) :
    (Json.array items).compact = "[" ++ lines "" "" (items.map compact) ++ "]" := by
  rw [compact, compactItems_eq]
  cases items <;> simp [lines]

private theorem compact_object (members : List (String × Json)) :
    (Json.object members).compact =
      "\x7b" ++ lines "" ""
        (members.map fun member => quote member.1 ++ ":" ++ "" ++ member.2.compact) ++ "\x7d" := by
  rw [compact, compactMembers_eq]
  cases members <;> simp [lines]

private theorem prettyItems_eq (indent : String) (items : List Json) :
    prettyItems indent items = items.map (prettyFrom indent) := by
  induction items with
  | nil => rfl
  | cons item items ih => rw [prettyItems, ih, List.map_cons]

private theorem prettyMembers_eq (indent : String) (members : List (String × Json)) :
    prettyMembers indent members =
      members.map fun member => quote member.1 ++ ": " ++ prettyFrom indent member.2 := by
  induction members with
  | nil => rfl
  | cons member members ih => rw [prettyMembers, ih, List.map_cons]

private theorem bracketed_eq (opening closing indent : String) (values : List String) :
    bracketed opening closing indent values =
      opening ++ lines ("\n" ++ indent ++ "  ") ("\n" ++ indent) values ++ closing := by
  cases values <;> simp [bracketed, lines, String.append_assoc]

private theorem pretty_array (indent : String) (items : List Json) :
    prettyFrom indent (.array items) =
      "[" ++ lines ("\n" ++ indent ++ "  ") ("\n" ++ indent)
        (items.map (prettyFrom (indent ++ "  "))) ++ "]" := by
  rw [prettyFrom, prettyItems_eq, bracketed_eq]

private theorem pretty_object (indent : String) (members : List (String × Json)) :
    prettyFrom indent (.object members) =
      "\x7b" ++ lines ("\n" ++ indent ++ "  ") ("\n" ++ indent)
        (members.map fun member =>
          quote member.1 ++ ":" ++ " " ++ prettyFrom (indent ++ "  ") member.2) ++ "\x7d" := by
  have colon : ": " = ":" ++ " " := rfl
  rw [prettyFrom, prettyMembers_eq, bracketed_eq, colon]
  simp only [String.append_assoc]

/-- A value on one line is one of its texts. -/
private theorem writes_compact (depth : Nat) (json : Json) (plain : Plain depth json) :
    Writes depth json json.compact.toList := by
  have empty : Reader.Blank "".toList := .nil
  induction depth generalizing json with
  | zero =>
    have scalar := writesScalar_compact plain
    cases json <;> exact scalar
  | succ depth ih =>
    cases json with
    | array items =>
      have written := writes_array empty empty fun item member =>
        ih item (plain item member)
      rwa [← compact_array] at written
    | object members =>
      have written := writes_object empty empty empty fun member found =>
        ih member.2 (plain member found)
      rwa [← compact_object] at written
    | _ => exact writesScalar_compact plain

/-- A value on many lines is one of its texts. -/
private theorem writes_pretty (depth : Nat) (indent : String) (isBlank : Reader.Blank indent.toList)
    (json : Json) (plain : Plain depth json) :
    Writes depth json (prettyFrom indent json).toList := by
  -- The white space of a line grows with the depth.
  induction depth generalizing indent json with
  | zero =>
    have scalar := writesScalar_compact plain
    cases json <;> exact scalar
  | succ depth ih =>
    have step : Reader.Blank "  ".toList := by decide
    have newline : Reader.Blank "\n".toList := by decide
    have deeper : Reader.Blank (indent ++ "  ").toList := by
      rw [String.toList_append]
      exact isBlank.append step
    have before : Reader.Blank ("\n" ++ indent ++ "  ").toList := by
      rw [String.append_assoc, String.toList_append]
      exact newline.append deeper
    have after : Reader.Blank ("\n" ++ indent).toList := by
      rw [String.toList_append]
      exact newline.append isBlank
    cases json with
    | array items =>
      have written := writes_array before after fun item member =>
        ih (indent ++ "  ") deeper item (plain item member)
      rwa [← pretty_array] at written
    | object members =>
      have gap : Reader.Blank " ".toList := by decide
      have written := writes_object before gap after fun member found =>
        ih (indent ++ "  ") deeper member.2 (plain member found)
      rwa [← pretty_object] at written
    | _ => exact writesScalar_compact plain

/-- The texts that a value is written as. -/
def texts (json : Json) : List String := [json.compact, json.pretty]

/-- A plain value is read back from each of its texts. -/
theorem parse?_texts {json : Json} (plain : Plain maxDepth json) :
    ∀ text ∈ json.texts, parse? text = some json := by
  have read (text : String) (written : Writes maxDepth json text.toList) :
      parse? text = some json := by
    have parsed := parse?_of_writes .nil written .nil
    rwa [List.nil_append, List.append_nil, String.ofList_toList] at parsed
  have compact := read _ (writes_compact maxDepth json plain)
  have pretty := read _ (writes_pretty maxDepth "" .nil json plain)
  exact List.forall_mem_cons.mpr ⟨compact, List.forall_mem_singleton.mpr pretty⟩

end MethodContracts.Json
