import MethodContracts.Text.Split

/-!
# Offsets, lines and columns

An offset counts bytes of the UTF-8 form. A position counts lines and, within
a line, characters, both from one.
-/
namespace MethodContracts.Text

/-- The number of bytes of the UTF-8 form. -/
def byteLength : List Char → Nat
  | [] => 0
  | c :: rest => c.utf8Size + byteLength rest

theorem byteLength_append (left right : List Char) :
    byteLength (left ++ right) = byteLength left + byteLength right := by
  induction left with
  | nil => simp [byteLength]
  | cons c rest ih => simp only [List.cons_append, byteLength, ih, Nat.add_assoc]

/-- The characters before a byte offset, if the offset is a character boundary
of the text. -/
def before? : Nat → List Char → Option (List Char)
  | 0, _ => some []
  | _ + 1, [] => none
  | offset + 1, c :: rest =>
    if c.utf8Size ≤ offset + 1 then (before? (offset + 1 - c.utf8Size) rest).map (c :: ·) else none
termination_by structural _ cs => cs

/-- The text before and after a byte offset, if the offset is a character boundary
of the text. -/
def cutAt? (offset : Nat) (cs : List Char) : Option (List Char × List Char) :=
  (before? offset cs).map fun before => (before, cs.drop before.length)

/-- Line and column of the place after `read`, both counted from one. -/
def positionAfter (read : List Char) : Nat × Nat :=
  let lines := splitOn '\n' read
  (lines.length, (lines.getLastD []).length + 1)

/-- Line and column of a byte offset. An offset past the end is the end; an
offset inside a character counts the whole text. -/
def lineColumn (text : String) (offset : Nat) : Nat × Nat :=
  let cs := text.toList
  positionAfter ((before? (min offset (byteLength cs)) cs).getD cs)

end MethodContracts.Text
