/-!
Binary numbers: single bits, and whole numbers of 64 bits.
-/

namespace SignalBridge

/-- The number whose only bit is bit `n`. -/
def bit (n : Nat) : Nat :=
  1 <<< n

/-- The number of 64 signed bits that equals `i`. -/
def int64? (i : Int) : Option Int64 :=
  if Int64.minValue.toInt ≤ i ∧ i ≤ Int64.maxValue.toInt then some (Int64.ofInt i) else none

theorem int64?_eq_some {i : Int} {k : Int64} (h : int64? i = some k) : k.toInt = i := by
  unfold int64? at h
  split at h
  next hrange =>
    obtain rfl := Option.some.inj h
    exact Int64.toInt_ofInt_of_le hrange.1 (Int.lt_of_le_of_lt hrange.2 (by decide))
  · cases h

theorem ne_of_int64?_eq_none {i : Int} (h : int64? i = none) (k : Int64) : k.toInt ≠ i := by
  rintro rfl
  rw [int64?, if_pos ⟨k.minValue_le_toInt, k.toInt_le⟩] at h
  cases h

end SignalBridge
