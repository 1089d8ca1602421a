/-! # Sets of characters as ranges

    A set of characters is a list of ranges of code points, both ends included. -/

namespace StructuralMatch.Text

/-- Ranges of code points, both ends included. -/
abbrev Ranges := List (Nat × Nat)

/-- Whether a character lies in one of the ranges. -/
def Ranges.contains (r : Ranges) (c : Char) : Bool :=
  r.any fun (low, high) => decide (low ≤ c.toNat) && decide (c.toNat ≤ high)

end StructuralMatch.Text
