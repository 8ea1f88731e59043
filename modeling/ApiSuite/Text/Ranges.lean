/-!
Sets of code points given as lists of closed ranges.
-/

namespace ApiSuite.Text

def inRanges (ranges : List (Nat × Nat)) (code : Nat) : Bool :=
  ranges.any fun (first, last) => first ≤ code && code ≤ last

end ApiSuite.Text
