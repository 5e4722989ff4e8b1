/-!
# Ranges of code points

A property of characters is given as a list of ranges, both ends included.
-/

namespace SelectorIndex.Text

def inRanges (ranges : List (Nat × Nat)) (n : Nat) : Bool :=
  ranges.any fun r => r.1 ≤ n && n ≤ r.2

end SelectorIndex.Text
