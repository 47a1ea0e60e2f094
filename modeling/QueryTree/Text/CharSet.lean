/-! Sets of characters, given by their ranges of code points. -/

namespace QueryTree

/-- A character set as a list of inclusive code point ranges. -/
structure CharSet where
  ranges : List (Nat × Nat)

namespace CharSet

def contains (s : CharSet) (c : Char) : Bool :=
  s.ranges.any fun r => decide (r.1 ≤ c.toNat ∧ c.toNat ≤ r.2)

end CharSet

end QueryTree
