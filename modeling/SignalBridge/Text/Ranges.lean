/-!
Character classes given by ranges of code points, as Unicode 17.0 has them.
-/

namespace SignalBridge.Text

/-- The code point of `c` lies in one of the ranges, ends included. -/
def inRanges (ranges : Array (Nat × Nat)) (c : Char) : Bool :=
  ranges.any fun (first, last) => first ≤ c.toNat && c.toNat ≤ last

end SignalBridge.Text
