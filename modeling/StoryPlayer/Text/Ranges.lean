/-!
# Ranges of characters

Properties of characters are tables of inclusive ranges of code points in increasing order.

- `inRanges` decides membership.
-/

namespace StoryPlayer
namespace Text

def inRanges (ranges : List (Nat × Nat)) (c : Char) : Bool :=
  ranges.any fun range => range.1 ≤ c.toNat && c.toNat ≤ range.2

end Text
end StoryPlayer
