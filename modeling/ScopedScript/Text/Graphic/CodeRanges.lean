namespace ScopedScript

/-!
# Sets of code points

A set of code points is written as closed ranges, each above the one before it.
-/

/-- Closed ranges of code points. -/
abbrev CodeRanges := List (Nat × Nat)

namespace CodeRanges

/-- Whether a code point lies in one of the ranges. -/
def contains (ranges : CodeRanges) (code : Nat) : Bool :=
  ranges.any fun range => range.1 ≤ code && code ≤ range.2

end CodeRanges

end ScopedScript
