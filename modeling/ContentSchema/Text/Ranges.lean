/-!
# Ranges of code points

A class of characters that a standard fixes by enumeration is kept as a list of closed
ranges of code points, and membership is looked up in the list.
-/

namespace ContentSchema
namespace Text

abbrev CodeRanges := List (Nat × Nat)

def inRanges (ranges : CodeRanges) (c : Char) : Bool :=
  ranges.any (fun r => r.1 ≤ c.toNat && c.toNat ≤ r.2)

end Text
end ContentSchema
