/-!
# Spans of text

A span is a pair of byte offsets into a text. Nothing is assumed about their
order: a span whose start is not before its end is empty.
-/
namespace MethodContracts

/-- The bytes from `start` up to, and not including, `stop`. -/
structure Span where
  start : Nat
  stop : Nat
deriving DecidableEq, Repr, Inhabited

namespace Span

/-- The empty span at one offset. -/
def point (offset : Nat) : Span := ⟨offset, offset⟩

/-- The number of bytes; zero when the end comes first. -/
def length (span : Span) : Nat := span.stop - span.start

def isEmpty (span : Span) : Bool := decide (span.stop ≤ span.start)

/-- The smallest span that starts no later and ends no earlier than either. -/
def cover (left right : Span) : Span :=
  ⟨min left.start right.start, max left.stop right.stop⟩

/-- The text shown for a span where people debug. -/
def display (span : Span) : String := s!"Span({span.start}..{span.stop})"

theorem isEmpty_iff_length (span : Span) : span.isEmpty = true ↔ span.length = 0 := by
  simp only [isEmpty, length, decide_eq_true_eq]
  omega

theorem cover_comm (left right : Span) : left.cover right = right.cover left := by
  simp only [cover, Nat.min_comm, Nat.max_comm]

end Span
end MethodContracts
