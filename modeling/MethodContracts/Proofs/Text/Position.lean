import Mathlib.Data.List.DropRight
import MethodContracts.Proofs.Source.Tiling
import MethodContracts.Proofs.Text.Spacing
import MethodContracts.Text.Position

/-!
# Positions

The position behind a text counts its line feeds and the characters behind the last of them.
So more text takes it to a later line, or further on in the same one, and offsets between
characters are told apart by their positions.
-/
namespace MethodContracts.Text

/-! ## The last line -/

/-- What stands behind the last line feed. -/
def lastLine (cs : List Char) : List Char := cs.rtakeWhile (· ≠ '\n')

private theorem lastLine_feed (cs : List Char) : lastLine (cs ++ ['\n']) = [] :=
  List.rtakeWhile_concat_neg _ _ _ (by simp)

private theorem lastLine_concat {c : Char} (noFeed : c ≠ '\n') (cs : List Char) :
    lastLine (cs ++ [c]) = lastLine cs ++ [c] :=
  List.rtakeWhile_concat_pos _ _ _ (by simpa using noFeed)

/-- A text is its last line, or has a line feed in front of that. -/
private theorem exists_lastLine (cs : List Char) :
    cs = lastLine cs ∨ ∃ earlier, cs = earlier ++ '\n' :: lastLine cs := by
  induction cs using List.reverseRecOn with
  | nil => exact .inl rfl
  | append_singleton cs c ih =>
    by_cases feed : c = '\n'
    · exact .inr ⟨cs, by rw [feed, lastLine_feed]⟩
    · rw [lastLine_concat feed]
      rcases ih with single | ⟨earlier, lines⟩
      · exact .inl (congrArg (· ++ [c]) single)
      · refine .inr ⟨earlier, ?_⟩
        rw [← List.cons_append, ← List.append_assoc, ← lines]

private theorem feed_not_mem_lastLine (cs : List Char) : '\n' ∉ lastLine cs := fun member => by
  simpa using List.mem_rtakeWhile_imp member

/-- A text without a line feed lengthens the last line. -/
private theorem lastLine_append {more : List Char} (noFeed : '\n' ∉ more) (cs : List Char) :
    lastLine (cs ++ more) = lastLine cs ++ more := by
  -- The last line is taken from behind, and so is the induction.
  induction more using List.reverseRecOn with
  | nil => simp
  | append_singleton more c ih =>
    simp only [List.mem_append, List.mem_singleton, not_or] at noFeed
    rw [← List.append_assoc, lastLine_concat (Ne.symm noFeed.2), ih noFeed.1, List.append_assoc]

/-! ## Positions -/

/-- There is one more piece than there are separators. -/
private theorem length_splitOn (separator : Char) (cs : List Char) :
    (splitOn separator cs).length = cs.count separator + 1 := by
  rw [splitOn_eq]
  induction cs with
  | nil => rfl
  | cons c cs ih =>
    rw [List.splitOn_cons_eq_if_modifyHead, List.count_cons]
    split <;> simp [ih]

/-- The last of the lines is the last line. -/
private theorem getLastD_splitOn (cs : List Char) :
    (splitOn '\n' cs).getLastD [] = lastLine cs := by
  have single : (lastLine cs).splitOn '\n' = [lastLine cs] :=
    List.splitOn_eq_singleton (feed_not_mem_lastLine cs)
  rw [splitOn_eq]
  rcases exists_lastLine cs with same | ⟨earlier, lines⟩
  · rw [← same] at single
    rw [single]
    exact same
  · have pieces : cs.splitOn '\n' = earlier.splitOn '\n' ++ [lastLine cs] := by
      rw [← single, ← List.splitOn_append_cons_self, ← lines]
    rw [pieces]
    simp

/-- Lines are counted by their line feeds, and columns by the characters of the last line. -/
theorem positionAfter_eq (read : List Char) :
    positionAfter read = (read.count '\n' + 1, (lastLine read).length + 1) := by
  rw [positionAfter, length_splitOn, getLastD_splitOn]

/-- More text leads to a later position. -/
private theorem positionAfter_lt_append (read : List Char) {more : List Char}
    (nonempty : more ≠ []) :
    Prod.Lex (· < ·) (· < ·) (positionAfter read) (positionAfter (read ++ more)) := by
  rw [positionAfter_eq, positionAfter_eq, List.count_append]
  by_cases feed : '\n' ∈ more
  · have counted : 0 < more.count '\n' := List.count_pos_iff.mpr feed
    exact .left _ _ (by omega)
  · rw [List.count_eq_zero_of_not_mem feed, lastLine_append feed, List.length_append]
    have longer := List.length_pos_iff.mpr nonempty
    exact .right _ (by omega)

/-! ## Offsets -/

/-- What stands before the end of a first part is this part. -/
private theorem before?_append (front back : List Char) :
    before? (byteLength front) (front ++ back) = some front := by
  induction front with
  | nil => cases back <;> rfl
  | cons c front ih =>
    have pos := c.utf8Size_pos
    obtain ⟨size, succ⟩ : ∃ size, byteLength (c :: front) = size + 1 :=
      ⟨byteLength (c :: front) - 1, by rw [byteLength]; omega⟩
    have fits : c.utf8Size ≤ size + 1 := by
      rw [← succ, byteLength]
      omega
    have left : size + 1 - c.utf8Size = byteLength front := by
      rw [← succ, byteLength]
      omega
    rw [succ, List.cons_append, before?, if_pos fits, left, ih, Option.map_some]

section LineColumn

variable {text : String} {front back : List Char} (whole : text.toList = front ++ back)
include whole

/-- The end of a first part is found as it is. -/
theorem before?_front :
    before? (min (byteLength front) (byteLength text.toList)) text.toList = some front := by
  have within : byteLength front ≤ byteLength text.toList := by
    rw [whole, byteLength_append]
    omega
  rw [Nat.min_eq_left within, whole, before?_append]

theorem lineColumn_front : lineColumn text (byteLength front) = positionAfter front := by
  simp only [lineColumn, before?_front whole, Option.getD_some]

end LineColumn

/-- Of two places between characters the earlier one has the smaller position. -/
theorem lineColumn_lt {text : String} {low high : Nat} (first : IsBoundary 0 text.toList low)
    (second : IsBoundary 0 text.toList high) (less : low < high) :
    Prod.Lex (· < ·) (· < ·) (lineColumn text low) (lineColumn text high) := by
  obtain ⟨front, back, whole, rfl⟩ := first
  obtain ⟨longer, others, whole', rfl⟩ := second
  rw [Nat.zero_add, Nat.zero_add] at less ⊢
  rw [lineColumn_front whole, lineColumn_front whole']
  -- One of the two first parts begins with the other, and it is the longer one.
  rcases List.append_eq_append_iff.mp (whole.symm.trans whole') with
    ⟨more, rfl, _⟩ | ⟨more, rfl, _⟩
  · refine positionAfter_lt_append front fun empty => ?_
    rw [empty, List.append_nil] at less
    exact Nat.lt_irrefl _ less
  · rw [byteLength_append] at less
    omega

/-- Past the end all offsets are at the end. -/
theorem lineColumn_of_le {text : String} {offset : Nat} (past : byteLength text.toList ≤ offset) :
    lineColumn text offset = lineColumn text (byteLength text.toList) := by
  simp only [lineColumn, Nat.min_eq_right past, Nat.min_self]

end MethodContracts.Text
