/-!
# Sets of characters given by ranges

A table lists closed ranges of code points in increasing order.
-/
namespace MethodContracts.Text

/-- Whether a code point lies in one of the closed ranges. -/
def inRanges (ranges : List (Nat × Nat)) (codePoint : Nat) : Bool :=
  ranges.any fun (low, high) => low ≤ codePoint && codePoint ≤ high

end MethodContracts.Text
