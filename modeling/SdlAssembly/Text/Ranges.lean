/-!
# Ranges of characters

A class of characters is told by ranges of their code points, the first and the last of each.
-/

namespace SdlAssembly.Text

/-- Whether a code point lies in a range. -/
def inRanges (ranges : List (Nat × Nat)) (n : Nat) : Bool :=
  ranges.any fun (first, last) => first ≤ n && n ≤ last

end SdlAssembly.Text
