import SignalBridge.Proofs.DoubleQuotient

/-! Which double a number is rounded to. A number is compared with the multiples of the unit in its last place: doubles
    with the same unit or a larger one are such multiples, and doubles with a smaller one are below the number. So the
    nearest multiple, ties to even, is the nearest double. This is what the double of a whole number, a product and a
    quotient are, as long as 53 bits are kept. -/

namespace SignalBridge

theorem two_zpow_eq (t : ℤ) (k : ℕ) : (2 : ℚ) ^ t = 2 ^ k * 2 ^ (t - k) := by
  rw [← zpow_natCast, ← zpow_add₀ two_ne_zero, add_sub_cancel]

namespace Dyadic
variable (d : Dyadic)

/-- The factor that a sign stands for. -/
def signFactor (negative : Bool) : ℤ :=
  if negative then -1 else 1

/-- The number that the parts stand for. -/
def value : ℚ :=
  signFactor d.negative * (d.mantissa * 2 ^ d.exponent)

@[simp]
theorem signFactor_false : signFactor false = 1 := rfl

@[simp]
theorem signFactor_true : signFactor true = -1 := rfl

theorem signFactor_mul_self (negative : Bool) : signFactor negative * signFactor negative = 1 := by
  cases negative <;> rfl

theorem abs_signFactor_mul (negative : Bool) (x : ℚ) : |(signFactor negative : ℚ) * x| = |x| := by
  cases negative <;> simp [signFactor]

theorem abs_value : |d.value| = d.mantissa * 2 ^ d.exponent := by
  rw [value, abs_signFactor_mul, abs_of_nonneg (by positivity)]

theorem value_div (a b : Dyadic) : a.value / b.value = signFactor a.negative * signFactor b.negative *
    (a.mantissa / b.mantissa * 2 ^ (a.exponent - b.exponent)) := by
  have hinv (negative : Bool) : (signFactor negative : ℚ)⁻¹ = signFactor negative := by
    cases negative <;> norm_num [signFactor]
  rw [value, value, zpow_sub₀ two_ne_zero, mul_div_mul_comm, mul_div_mul_comm, div_eq_mul_inv (signFactor _ : ℚ), hinv]

/-- A number is a multiple of each unit that is not larger than its own. -/
theorem exists_value_eq {t : ℤ} (h : t ≤ d.exponent) : ∃ k : ℤ, d.value = k * 2 ^ t := by
  refine ⟨signFactor d.negative * (d.mantissa * 2 ^ (d.exponent - t).toNat), ?_⟩
  have hexponent : d.exponent - (d.exponent - t).toNat = t := by omega
  rw [value, two_zpow_eq d.exponent (d.exponent - t).toNat, hexponent]
  push_cast
  ring

end Dyadic

namespace Double
open Float.Model Float.Model.UnpackedFloat

/-! ### Nearest numbers -/

/-- The whole number nearest to a number, and the even one of two. -/
structure IsRounded (r : ℚ) (n : ℕ) : Prop where
  near : |(n : ℚ) - r| ≤ 1 / 2
  even : |(n : ℚ) - r| = 1 / 2 → n % 2 = 0

/-- No finite double is nearer to a number. If one is as near, the mantissa is even. -/
def IsNearest (q : ℚ) (x : Float) : Prop :=
  ∃ d, parts? x = some d ∧ ∀ y d', parts? y = some d' →
    |d.value - q| ≤ |d'.value - q| ∧ (|d.value - q| = |d'.value - q| → d'.value = d.value ∨ d.mantissa % 2 = 0)

section
variable {r q : ℚ} {n : ℕ} {x : Float} {d : Dyadic} {t : ℤ}

theorem IsRounded.least (h : IsRounded r n) (k : ℤ) :
    |(n : ℚ) - r| ≤ |(k : ℚ) - r| ∧ (|(n : ℚ) - r| = |(k : ℚ) - r| → k = n ∨ n % 2 = 0) := by
  by_cases hk : k = n
  · subst hk
    exact ⟨le_of_eq (by simp), fun _ => .inl rfl⟩
  · have hapart : (1 : ℚ) ≤ |(k : ℚ) - n| := by
      exact_mod_cast Int.one_le_abs (sub_ne_zero.mpr hk)
    have htriangle : |(k : ℚ) - n| ≤ |(k : ℚ) - r| + |(n : ℚ) - r| := by
      rw [abs_sub_comm (n : ℚ) r]
      exact abs_sub_le _ _ _
    have hnear := h.near
    exact ⟨by linarith, fun heq => .inr (h.even (by linarith))⟩

theorem isRounded_self (n : ℕ) : IsRounded n n := by
  constructor <;> norm_num

theorem IsNearest.isFinite (h : IsNearest q x) : x.isFinite = true := by
  obtain ⟨d, hd, -⟩ := h
  rw [isFinite_eq, hd, Option.isSome_some]

theorem isRounded_of_near (h : |(n : ℚ) - r| < 1 / 2) : IsRounded r n :=
  ⟨h.le, fun heq => absurd heq h.ne⟩

theorem isNearest_of_value (hd : parts? x = some d) (hvalue : d.value = q) : IsNearest q x := by
  refine ⟨d, hd, fun y d' _ => ?_⟩
  rw [hvalue, sub_self, abs_zero]
  exact ⟨abs_nonneg _, fun heq => .inl (sub_eq_zero.mp (abs_eq_zero.mp heq.symm))⟩

/-- The nearest multiple of the unit in the last place is the nearest double. -/
theorem isNearest_of_isRounded (hd : parts? x = some d) (hvalue : (d.mantissa * 2 ^ d.exponent : ℚ) = n * 2 ^ t)
    (heven : n % 2 = 0 → d.mantissa % 2 = 0) (hlow : 2 ^ 52 ≤ r) (h : IsRounded r n) :
    IsNearest (Dyadic.signFactor d.negative * (r * 2 ^ t)) x := by
  have hunit : (0 : ℚ) < 2 ^ t := by positivity
  have hself : |d.value - Dyadic.signFactor d.negative * (r * 2 ^ t)| = |(n : ℚ) - r| * 2 ^ t := by
    rw [Dyadic.value, hvalue, ← mul_sub, Dyadic.abs_signFactor_mul, ← sub_mul, abs_mul, abs_of_pos hunit]
  refine ⟨d, hd, fun y d' hd' => ?_⟩
  have hsign : (Dyadic.signFactor d.negative * Dyadic.signFactor d.negative : ℚ) = 1 := by
    exact_mod_cast Dyadic.signFactor_mul_self d.negative
  -- Both numbers are mirrored, so that the number to round is positive.
  have hother : |d'.value - Dyadic.signFactor d.negative * (r * 2 ^ t)| =
      |Dyadic.signFactor d.negative * d'.value - r * 2 ^ t| := by
    rw [← Dyadic.abs_signFactor_mul d.negative, mul_sub, ← mul_assoc, hsign, one_mul]
  rw [hself, hother]
  by_cases hexponent : t ≤ d'.exponent
  · obtain ⟨k, hk⟩ := d'.exists_value_eq hexponent
    have hmultiple : |Dyadic.signFactor d.negative * d'.value - r * 2 ^ t| =
        |((Dyadic.signFactor d.negative * k : ℤ) : ℚ) - r| * 2 ^ t := by
      rw [hk, ← mul_assoc, ← sub_mul, abs_mul, abs_of_pos hunit, Int.cast_mul]
    obtain ⟨hle, htie⟩ := h.least (Dyadic.signFactor d.negative * k)
    rw [hmultiple]
    refine ⟨mul_le_mul_of_nonneg_right hle hunit.le, fun heq => ?_⟩
    refine (htie (mul_right_cancel₀ hunit.ne' heq)).imp (fun hsame => ?_) heven
    have hcast : (n : ℚ) = Dyadic.signFactor d.negative * k := by exact_mod_cast hsame.symm
    rw [hk, Dyadic.value, hvalue, hcast, ← mul_assoc, ← mul_assoc, hsign, one_mul]
  · -- A double with a smaller unit is less than `2 ^ 52` units in size.
    have hsmall : |Dyadic.signFactor d.negative * d'.value| < 2 ^ 52 * 2 ^ t := by
      have hmantissa : (d'.mantissa : ℚ) < 2 ^ 53 := by
        have hlt := (canonical_of_parts? hd').mantissa_lt
        rw [bit_eq] at hlt
        exact_mod_cast hlt
      have hstep : (2 : ℚ) ^ d'.exponent ≤ 2 ^ (t - 1) := zpow_le_zpow_right₀ one_le_two (by omega)
      have hhalf : (2 : ℚ) ^ (t - 1) * 2 = 2 ^ t := by
        rw [← zpow_add_one₀ two_ne_zero, sub_add_cancel]
      rw [Dyadic.abs_signFactor_mul, Dyadic.abs_value]
      calc (d'.mantissa : ℚ) * 2 ^ d'.exponent ≤ d'.mantissa * 2 ^ (t - 1) := by gcongr
        _ < 2 ^ 53 * 2 ^ (t - 1) := by gcongr
        _ = 2 ^ 52 * 2 ^ t := by rw [← hhalf]; ring
    have hleast : |(n : ℚ) - r| ≤ r - 2 ^ 52 := by
      have hle := (h.least (2 ^ 52)).1
      rwa [Int.cast_pow, Int.cast_ofNat, abs_sub_comm (2 ^ 52), abs_of_nonneg (sub_nonneg.mpr hlow)] at hle
    have hfar : r * 2 ^ t - |Dyadic.signFactor d.negative * d'.value| ≤
        |Dyadic.signFactor d.negative * d'.value - r * 2 ^ t| := by
      rw [abs_sub_comm]
      exact le_trans (sub_le_sub_left (le_abs_self _) _) (le_abs_self _)
    have hlt : |(n : ℚ) - r| * 2 ^ t < |Dyadic.signFactor d.negative * d'.value - r * 2 ^ t| := by
      have hscaled := mul_le_mul_of_nonneg_right hleast hunit.le
      rw [sub_mul] at hscaled
      linarith
    exact ⟨hlt.le, fun heq => absurd heq hlt.ne⟩

end

/-! ### Kept bits and what is left over -/

/-- What is left over above a whole number, by how it compares with a half. -/
def Leaves : Accuracy → ℚ → Prop
  | .exact, f => f = 0
  | .inexact .lt, f => 0 < f ∧ f < 1 / 2
  | .inexact .eq, f => f = 1 / 2
  | .inexact .gt, f => 1 / 2 < f ∧ f < 1

section
variable {em : ExtendedMantissa} {r f : ℚ} {accuracy : Accuracy}

theorem Leaves.nonneg (h : Leaves accuracy f) : 0 ≤ f := by
  cases accuracy with
  | exact => exact le_of_eq (Eq.symm h)
  | inexact o =>
    cases o with
    | lt => exact h.1.le
    | eq =>
      have hhalf : f = 1 / 2 := h
      linarith
    | gt =>
      have hhalf := h.1
      linarith

theorem leaves_of_mantissa (m : ℕ) (h : Leaves accuracy f) :
    Leaves (ExtendedMantissa.ofMantissaAndAccuracy m accuracy).accuracy f := by
  cases accuracy with
  | exact => exact h
  | inexact o => cases o <;> exact h

/-- Nothing is left over if both bits are clear, and else less than one unit. -/
theorem Leaves.of_bits (h : Leaves em.accuracy f) :
    if em.roundBit || em.stickyBit then 0 < f ∧ f < 1 else f = 0 := by
  obtain ⟨m, roundBit, stickyBit⟩ := em
  cases roundBit with
  | false =>
    cases stickyBit with
    | false => exact h
    | true =>
      obtain ⟨hpos, hhalf⟩ := h
      exact ⟨hpos, by linarith⟩
  | true =>
    cases stickyBit with
    | false =>
      obtain rfl : f = 1 / 2 := h
      exact ⟨by norm_num, by norm_num⟩
    | true =>
      obtain ⟨hhalf, hone⟩ := h
      exact ⟨by linarith, hone⟩

/-- The bit that is shifted out decides on the side of the half, and the bits below on whether the half is met. -/
theorem leaves_shiftRightOne (h : Leaves em.accuracy (r - em.mantissa)) :
    Leaves em.shiftRightOne.accuracy (r / 2 - em.shiftRightOne.mantissa) := by
  obtain ⟨m, roundBit, stickyBit⟩ := em
  have hrest := h.of_bits
  have hm : (m : ℚ) = 2 * (m / 2 : ℕ) + (m % 2 : ℕ) := by exact_mod_cast (Nat.div_add_mod m 2).symm
  change Leaves (ExtendedMantissa.accuracy ⟨m / 2, m % 2 != 0, roundBit || stickyBit⟩) (r / 2 - (m / 2 : ℕ))
  dsimp only at hrest
  generalize (roundBit || stickyBit) = stickyBit at hrest ⊢
  rcases Nat.mod_two_eq_zero_or_one m with hbit | hbit
  · rw [hbit, Nat.cast_zero, add_zero] at hm
    rw [hbit]
    cases stickyBit with
    | false =>
      have hzero : r - m = 0 := hrest
      change r / 2 - (m / 2 : ℕ) = 0
      linarith
    | true =>
      obtain ⟨hpos, hone⟩ := hrest
      exact ⟨by linarith, by linarith⟩
  · rw [hbit, Nat.cast_one] at hm
    rw [hbit]
    cases stickyBit with
    | false =>
      have hzero : r - m = 0 := hrest
      change r / 2 - (m / 2 : ℕ) = 1 / 2
      linarith
    | true =>
      obtain ⟨hpos, hone⟩ := hrest
      exact ⟨by linarith, by linarith⟩

theorem leaves_shiftRight (h : Leaves em.accuracy (r - em.mantissa)) (k : ℕ) :
    Leaves (em >>> k).accuracy (r / 2 ^ k - (em >>> k).mantissa) := by
  induction k with
  | zero =>
    rw [pow_zero, div_one]
    exact h
  | succ k ih =>
    rw [pow_succ, ← div_div]
    exact leaves_shiftRightOne ih

theorem le_roundedMantissa (em : ExtendedMantissa) : em.mantissa ≤ em.roundedMantissa := by
  unfold ExtendedMantissa.roundedMantissa
  cases em.accuracy with
  | exact => exact Nat.le_refl _
  | inexact o =>
    cases o with
    | lt => exact Nat.le_refl _
    | eq => exact Nat.le_add_right _ _
    | gt => exact Nat.le_succ _

theorem isRounded_roundToNearestEven {m : ℕ} (h : Leaves accuracy (r - m)) :
    IsRounded r (accuracy.roundToNearestEven m) := by
  cases accuracy with
  | exact =>
    obtain rfl : r = m := sub_eq_zero.mp h
    exact isRounded_self m
  | inexact o =>
    cases o with
    | lt =>
      obtain ⟨hlow, hhigh⟩ := h
      change IsRounded r m
      exact isRounded_of_near (abs_lt.mpr ⟨by linarith, by linarith⟩)
    | eq =>
      have hhalf : r - m = 1 / 2 := h
      change IsRounded r (m + m % 2)
      refine ⟨abs_le.mpr ?_, fun _ => by omega⟩
      rcases Nat.mod_two_eq_zero_or_one m with hbit | hbit <;> rw [hbit] <;> push_cast <;> constructor <;> linarith
    | gt =>
      obtain ⟨hlow, hhigh⟩ := h
      change IsRounded r (m + 1)
      refine isRounded_of_near (abs_lt.mpr ?_)
      push_cast
      constructor <;> linarith

theorem leaves_accuracyOfFraction {n k : ℕ} (hk : 0 < k) (hn : n < k) : Leaves (accuracyOfFraction n k) (n / k) := by
  have hk' : (0 : ℚ) < k := by exact_mod_cast hk
  unfold accuracyOfFraction
  by_cases hzero : n = 0
  · rw [if_pos hzero, hzero]
    simp [Leaves]
  · have hpos : (0 : ℚ) < n := by exact_mod_cast Nat.pos_of_ne_zero hzero
    rw [if_neg hzero]
    rcases lt_trichotomy (2 * n) k with hlt | heq | hgt
    · have hlt' : (2 * n : ℚ) < k := by exact_mod_cast hlt
      rw [Nat.compare_eq_lt.mpr hlt]
      exact ⟨by positivity, by rw [div_lt_div_iff₀ hk' two_pos]; linarith⟩
    · have heq' : (2 * n : ℚ) = k := by exact_mod_cast heq
      rw [Nat.compare_eq_eq.mpr heq]
      change (n / k : ℚ) = 1 / 2
      rw [div_eq_div_iff hk'.ne' two_ne_zero]
      linarith
    · have hgt' : (k : ℚ) < 2 * n := by exact_mod_cast hgt
      have hn' : (n : ℚ) < k := by exact_mod_cast hn
      rw [Nat.compare_eq_gt.mpr hgt]
      exact ⟨by rw [div_lt_div_iff₀ two_pos hk']; linarith, by rwa [div_lt_one hk']⟩

end

/-! ### Whole numbers -/

section
variable {n k : ℕ} {negative : Bool}

theorem cast_bit (k : ℕ) : (bit k : ℚ) = 2 ^ k := by
  rw [bit_eq]
  exact Nat.cast_pow 2 k

theorem cast_div_add_mod (hk : k ≠ 0) : ((n / k : ℕ) + (n % k : ℕ) / k : ℚ) = n / k := by
  have hk' : (k : ℚ) ≠ 0 := by exact_mod_cast hk
  have hsplit : (n : ℚ) = k * (n / k : ℕ) + (n % k : ℕ) := by exact_mod_cast (Nat.div_add_mod n k).symm
  conv_rhs => rw [hsplit]
  field_simp

theorem shiftToNearest_eq (n k : ℕ) :
    shiftToNearest n k = (accuracyOfFraction (n % bit k) (bit k)).roundToNearestEven (n / bit k) := by
  have hpos := bit_pos k
  unfold shiftToNearest accuracyOfFraction
  generalize n / bit k = quotient
  generalize n % bit k = rest
  dsimp only
  by_cases hzero : rest = 0
  · subst hzero
    rw [if_pos rfl]
    exact if_pos (by simp [hpos])
  · rw [if_neg hzero]
    rcases lt_trichotomy (2 * rest) (bit k) with hlt | heq | hgt
    · rw [Nat.compare_eq_lt.mpr hlt]
      exact if_pos (by simp [hlt])
    · rw [Nat.compare_eq_eq.mpr heq, heq]
      change _ = quotient + quotient % 2
      rcases Nat.mod_two_eq_zero_or_one quotient with hbit | hbit <;> simp [hbit]
    · rw [Nat.compare_eq_gt.mpr hgt]
      exact if_neg (by simp [hgt.ne', Nat.le_of_lt hgt])

theorem isRounded_shiftToNearest (n k : ℕ) : IsRounded (n / 2 ^ k) (shiftToNearest n k) := by
  have hpos := bit_pos k
  have hsplit : (n / 2 ^ k : ℚ) - (n / bit k : ℕ) = (n % bit k : ℕ) / bit k := by
    rw [← cast_bit, ← cast_div_add_mod hpos.ne', add_sub_cancel_left]
  rw [shiftToNearest_eq]
  refine isRounded_roundToNearestEven ?_
  rw [hsplit]
  exact leaves_accuracyOfFraction hpos (Nat.mod_lt _ hpos)

theorem isRounded_keptBits (n : ℕ) : IsRounded (n / 2 ^ ((n.log2 : ℤ) - 52)) (keptBits n) := by
  unfold keptBits
  split
  case isTrue hshort =>
    have hexact : (n / 2 ^ ((n.log2 : ℤ) - 52) : ℚ) = (n * bit (52 - n.log2) : ℕ) := by
      have hexponent : -((n.log2 : ℤ) - 52) = ((52 - n.log2 : ℕ) : ℤ) := by omega
      rw [div_eq_mul_inv, ← zpow_neg, hexponent, zpow_natCast, Nat.cast_mul, cast_bit]
    rw [hexact]
    exact isRounded_self _
  case isFalse hlong =>
    have hexponent : (n.log2 : ℤ) - 52 = ((n.log2 - 52 : ℕ) : ℤ) := by omega
    rw [hexponent, zpow_natCast]
    exact isRounded_shiftToNearest n _

/-- The double of a whole number is the nearest one. -/
theorem isNearest_nearest (hlog : n.log2 ≤ 1022) :
    IsNearest (Dyadic.signFactor negative * n) (nearest ⟨negative, n, 0⟩) := by
  by_cases hn : n = 0
  · subst hn
    have hzero : parts? (nearest ⟨negative, 0, 0⟩) = some ⟨negative, 0, -1074⟩ := by cases negative <;> decide +kernel
    exact isNearest_of_value hzero (by simp [Dyadic.value])
  have hunit : ((2 : ℚ) ^ ((n.log2 : ℤ) - 52)) ≠ 0 := by positivity
  have hlow : (2 : ℚ) ^ 52 ≤ n / 2 ^ ((n.log2 : ℤ) - 52) := by
    have hpow : (2 : ℚ) ^ 52 * 2 ^ ((n.log2 : ℤ) - 52) = bit n.log2 := by
      rw [← zpow_natCast, ← zpow_add₀ two_ne_zero, cast_bit, ← zpow_natCast]
      congr 1
      omega
    rw [le_div_iff₀ (by positivity), hpow]
    exact_mod_cast bit_log2_le hn
  have hscaled : (n : ℚ) = n / 2 ^ ((n.log2 : ℤ) - 52) * 2 ^ ((n.log2 : ℤ) - 52) := (div_mul_cancel₀ _ hunit).symm
  have hparts := parts?_nearest negative hn hlog
  by_cases hcarry : keptBits n < bit 53
  · rw [if_pos hcarry] at hparts
    have h := isNearest_of_isRounded hparts rfl id hlow (isRounded_keptBits n)
    rwa [← hscaled] at h
  · -- A carry doubles the unit, and the mantissa is then the least one of its length.
    rw [if_neg hcarry] at hparts
    have hkept : keptBits n = bit 53 := Nat.le_antisymm (keptBits_bounds hn).2 (Nat.not_lt.mp hcarry)
    have hvalue : ((bit 52 : ℕ) * 2 ^ ((n.log2 : ℤ) - 51) : ℚ) = keptBits n * 2 ^ ((n.log2 : ℤ) - 52) := by
      have hstep : (n.log2 : ℤ) - 51 = (n.log2 : ℤ) - 52 + 1 := by ring
      rw [hkept, hstep, zpow_add_one₀ two_ne_zero, cast_bit, cast_bit]
      ring
    have h := isNearest_of_isRounded hparts hvalue (fun _ => (by decide : bit 52 % 2 = 0)) hlow (isRounded_keptBits n)
    rwa [← hscaled] at h

theorem ofInt_natCast (n : ℕ) : ofInt n = nearest ⟨false, n, 0⟩ := by
  rw [ofInt, decide_eq_false (by omega), Int.natAbs_natCast]

theorem isNearest_ofInt {i : ℤ} (hlog : i.natAbs.log2 ≤ 1022) : IsNearest i (ofInt i) := by
  have hvalue : (Dyadic.signFactor (decide (i < 0)) * i.natAbs : ℚ) = i := by
    rw [Nat.cast_natAbs]
    rcases lt_or_ge i 0 with hneg | hnonneg
    · rw [decide_eq_true hneg, Dyadic.signFactor_true, abs_of_neg hneg, ← Int.cast_mul, neg_one_mul, neg_neg]
    · rw [decide_eq_false (not_lt.mpr hnonneg), Dyadic.signFactor_false, abs_of_nonneg hnonneg, ← Int.cast_mul, one_mul]
  rw [← hvalue]
  exact isNearest_nearest hlog

/-- Zeros at the end of a whole number need no room. -/
theorem exists_parts?_of_dvd (hn : n ≠ 0) (hlog : n.log2 ≤ 1022) (hdvd : bit (n.log2 - 52) ∣ n) :
    ∃ d, parts? (nearest ⟨negative, n, 0⟩) = some d ∧ bit 52 ≤ d.mantissa ∧ d.exponent = (n.log2 : ℤ) - 52 ∧
      d.value = Dyadic.signFactor negative * n := by
  have hparts := parts?_nearest negative hn hlog
  have hpos := bit_pos (n.log2 - 52)
  have hfull : bit (52 - n.log2) * n < bit 53 * bit (n.log2 - 52) := by
    have hsplit : bit 53 * bit (n.log2 - 52) = bit (52 - n.log2) * bit (n.log2 + 1) := by
      rw [← bit_add, ← bit_add]
      congr 1
      omega
    rw [hsplit]
    exact Nat.mul_lt_mul_of_pos_left (lt_bit_log2 n) (bit_pos _)
  have hexact : keptBits n * bit (n.log2 - 52) = bit (52 - n.log2) * n := by
    unfold keptBits
    split
    case isTrue hshort =>
      have hzero : n.log2 - 52 = 0 := by omega
      rw [hzero, show bit 0 = 1 from rfl, Nat.mul_one, Nat.mul_comm]
    case isFalse hlong =>
      have hkept {k c : ℕ} (hc : n = bit k * c) : shiftToNearest n k = c := by
        rw [hc, Nat.mul_comm, shiftToNearest_exact]
      obtain ⟨c, hc⟩ := hdvd
      have hzero : 52 - n.log2 = 0 := by omega
      rw [hzero, show bit 0 = 1 from rfl, Nat.one_mul, hkept hc, Nat.mul_comm, ← hc]
  have hcarry : keptBits n < bit 53 := Nat.lt_of_mul_lt_mul_right (hexact ▸ hfull)
  rw [if_pos hcarry] at hparts
  refine ⟨_, hparts, (keptBits_bounds hn).1, rfl, congrArg ((Dyadic.signFactor negative : ℚ) * ·) ?_⟩
  have hunit : (2 : ℚ) ^ ((n.log2 : ℤ) - 52) * 2 ^ (52 - n.log2) = 2 ^ (n.log2 - 52) := by
    rw [← zpow_natCast, ← zpow_natCast, ← zpow_add₀ two_ne_zero]
    congr 1
    omega
  have hexact' : (keptBits n * 2 ^ (n.log2 - 52) : ℚ) = 2 ^ (52 - n.log2) * n := by
    rw [← cast_bit, ← cast_bit]
    exact_mod_cast hexact
  have hne : (2 : ℚ) ^ (52 - n.log2) ≠ 0 := by positivity
  rw [← hunit] at hexact'
  exact mul_left_cancel₀ hne (by linarith)

end

/-! ### Rounding of results -/

section
variable {s : Sign} {m : ℕ} {e t : ℤ} {f : ℚ} {accuracy : Accuracy}

theorem unpackSign_packComponents {spec : Format} {exponent : BitVec spec.exponentBits}
    {mantissa : BitVec spec.mantissaBitsWithoutImplicit} :
    Sign.ofBitVec (unpackSign (packComponents spec s exponent mantissa)) = s := by
  have hsign : unpackSign (packComponents spec s exponent mantissa) = s.toBitVec := by
    ext i hi
    obtain rfl : i = 0 := by omega
    simp [unpackSign, packComponents, BitVec.getLsbD_append, BitVec.getElem_append]
  rw [hsign]
  cases s <;> rfl

/-- Packing loses nothing of a number that a double can have. -/
theorem parts?_pack (s : Sign) (h : Canonical m e) (hm : 0 < m) :
    parts? (Float.ofModel (Float.Model.pack (.finite s m e hm))) = some ⟨s == .negative, m, e⟩ := by
  have hunpack : (Float.ofModel (Float.Model.pack (.finite s m e hm))).toModel.unpack =
      UnpackedFloat.unpack .binary64 (UnpackedFloat.pack .binary64 (.finite s m e hm)) := rfl
  have hbias : Format.binary64.exponentBias = 1023 := rfl
  have hlow := h.le_exponent
  have hhigh := h.exponent_le
  have hlt := h.mantissa_lt
  have hdouble : bit 53 = 2 * bit 52 := by decide
  have hmantissa : (BitVec.ofNat 52 m).toNat = m % bit 52 := by
    rw [BitVec.toNat_ofNat, bit_eq]
  rw [parts?_eq, hunpack, pack_finite hhigh, UnpackedFloat.unpack]
  simp only [unpackExponent_packComponents, unpackMantissa_packComponents, unpackSign_packComponents]
  by_cases hfull : m.log2 = 52
  · have hnormal : bit 52 ≤ m := (h.log2_eq hm.ne').mp hfull
    have hfield : (BitVec.ofNat 11 (e + 1075).toNat).toNat = (e + 1075).toNat := by
      rw [BitVec.toNat_ofNat]
      exact Nat.mod_eq_of_lt (by omega)
    have hones : BitVec.ofNat 11 (e + 1075).toNat ≠ -1#11 := by
      rw [ne_eq, ← BitVec.toNat_inj, hfield]
      change ¬(e + 1075).toNat = 2047
      omega
    have hzero : BitVec.ofNat 11 (e + 1075).toNat ≠ 0#11 := by
      rw [ne_eq, ← BitVec.toNat_inj, hfield]
      change ¬(e + 1075).toNat = 0
      omega
    have hrest : m % bit 52 = m - bit 52 := by
      rw [Nat.mod_eq_sub_mod hnormal, Nat.mod_eq_of_lt (by omega)]
    rw [if_pos hfull, if_neg hones, if_neg hzero, ofUnpacked?, toNat_implicit, hmantissa, hfield, hbias, hrest,
      Nat.add_sub_cancel' hnormal]
    congr 2
    push_cast
    omega
  · have hsmall : ¬bit 52 ≤ m := fun hnormal => hfull ((h.log2_eq hm.ne').mpr hnormal)
    have hself : (BitVec.ofNat 52 m).toNat = m := hmantissa.trans (Nat.mod_eq_of_lt (by omega))
    have hne : BitVec.ofNat 52 m ≠ 0#52 := by
      rw [ne_eq, ← BitVec.toNat_inj, hself]
      exact hm.ne'
    obtain rfl : e = -1074 := h.normal.resolve_left hsmall
    rw [if_neg hfull, if_neg (by decide), if_pos rfl, dif_neg hne, ofUnpacked?, hself]
    rfl

/-- A carry out of the kept bits doubles the unit. -/
theorem exists_shiftToTargetExponent (hlow : bit 52 ≤ m) (hhigh : m ≤ bit 53) (hleast : -1074 ≤ t) (hmost : t ≤ 970) :
    ∃ m' e', Canonical m' e' ∧ 0 < m' ∧ shiftToTargetExponent .binary64 m t .exact = (⟨m', false, false⟩, e') ∧
      (m' * 2 ^ e' : ℚ) = m * 2 ^ t ∧ (m % 2 = 0 → m' % 2 = 0) := by
  have hpos := bit_pos 52
  by_cases hcarry : m < bit 53
  · have hcanonical : Canonical m t := ⟨hcarry, hleast, by omega, .inl hlow⟩
    have hshift := shiftToTargetExponent_exact hcanonical (by omega) 0
    rw [show bit 0 = 1 from rfl, Nat.mul_one, Int.natCast_zero, Int.sub_zero] at hshift
    exact ⟨m, t, hcanonical, by omega, hshift, rfl, id⟩
  · have hm : m = bit 52 * bit 1 := Nat.le_antisymm hhigh (Nat.not_lt.mp hcarry)
    have hcanonical : Canonical (bit 52) (t + 1) := ⟨by decide, by omega, by omega, .inl (Nat.le_refl _)⟩
    have hshift := shiftToTargetExponent_exact hcanonical hpos.ne' 1
    rw [← hm, Int.natCast_one, Int.add_sub_cancel] at hshift
    refine ⟨bit 52, t + 1, hcanonical, hpos, hshift, ?_, fun _ => by decide⟩
    rw [hm, zpow_add_one₀ two_ne_zero, Nat.cast_mul, cast_bit 1]
    ring

/-- The 53 bits that are kept of a longer mantissa, and what is left over. -/
theorem exists_kept {k : ℕ} (hf : Leaves accuracy f) (hk : m.log2 = 52 + k) (hleast : -1022 ≤ m.log2 + e) :
    ∃ em, shiftToTargetExponent .binary64 m e accuracy = (em, e + k) ∧ em.mantissa = m / bit k ∧
      Leaves em.accuracy ((m + f) / 2 ^ k - em.mantissa) := by
  refine ⟨ExtendedMantissa.ofMantissaAndAccuracy m accuracy >>> k, ?_, ?_, leaves_shiftRight ?_ k⟩
  · have hsteps : (max ((m.log2 + 1 + e : Int) - 53) (-1074) - e).toNat = k := by omega
    change (ExtendedMantissa.ofMantissaAndAccuracy m accuracy >>>
      (max ((m.log2 + 1 + e : Int) - 53) (-1074) - e).toNat,
        e + ((max ((m.log2 + 1 + e : Int) - 53) (-1074) - e).toNat : Int)) = _
    rw [hsteps]
  · rw [mantissa_shiftRight, mantissa_ofMantissaAndAccuracy]
  · rw [mantissa_ofMantissaAndAccuracy, add_sub_cancel_left]
    exact leaves_of_mantissa m hf

/-- Rounding a result that has no fewer bits than are kept gives the nearest double. -/
theorem isNearest_roundWithAccuracy (s : Sign) (hf : Leaves accuracy f) (hlog : 52 ≤ m.log2)
    (hleast : -1022 ≤ m.log2 + e) (hmost : m.log2 + e ≤ 1022) :
    IsNearest (Dyadic.signFactor (s == .negative) * ((m + f) * 2 ^ e))
      (Float.ofModel (Float.Model.pack (roundWithAccuracy .binary64 s m e accuracy))) := by
  obtain ⟨k, hk⟩ := Nat.exists_eq_add_of_le hlog
  obtain ⟨em, hshift, hmantissa, hleaves⟩ := exists_kept hf hk hleast
  have hm : m ≠ 0 := by
    rintro rfl
    exact absurd hlog (by decide)
  have hkept : bit 52 ≤ em.mantissa ∧ em.mantissa < bit 53 := by
    have hlow := bit_log2_le hm
    have hhigh := lt_bit_log2 m
    have hcarried : bit (m.log2 + 1) = bit 53 * bit k := bit_of_eq_add (by omega)
    rw [hk, bit_add] at hlow
    rw [hcarried] at hhigh
    rw [hmantissa]
    exact ⟨(Nat.le_div_iff_mul_le (bit_pos k)).mpr hlow, (Nat.div_lt_iff_lt_mul (bit_pos k)).mpr hhigh⟩
  have hrounded : IsRounded ((m + f) / 2 ^ k) em.roundedMantissa := isRounded_roundToNearestEven hleaves
  have hbounds := le_roundedMantissa em
  have hbounds' := roundedMantissa_le em
  obtain ⟨m', e', hcanonical, hpos, hcarry, hvalue, heven⟩ :=
    exists_shiftToTargetExponent (m := em.roundedMantissa) (t := e + k) (by omega) (by omega) (by omega) (by omega)
  have hresult : roundWithAccuracy .binary64 s m e accuracy = .finite s m' e' hpos := by
    rw [roundWithAccuracy, hshift]
    simp only [hcarry]
    exact dif_neg hpos.ne'
  have hlow : (2 : ℚ) ^ 52 ≤ (m + f) / 2 ^ k := by
    have hbits : (bit 52 * bit k : ℚ) ≤ m := by
      have hle := bit_log2_le hm
      rw [hk, bit_add] at hle
      exact_mod_cast hle
    rw [cast_bit, cast_bit] at hbits
    rw [le_div_iff₀ (by positivity)]
    have hnonneg := hf.nonneg
    linarith
  have hscaled : ((m + f) / 2 ^ k * 2 ^ (e + k) : ℚ) = (m + f) * 2 ^ e := by
    rw [zpow_add₀ two_ne_zero, zpow_natCast]
    field_simp
  have h := isNearest_of_isRounded (parts?_pack s hcanonical hpos) hvalue heven hlow hrounded
  rw [hresult, ← hscaled]
  exact h

end

/-! ### Operations -/

section
variable {x y : Float} {a b : Dyadic}

/-- A double that has all 53 bits is unpacked into its parts. -/
theorem exists_unpack (h : parts? x = some a) (ha : bit 52 ≤ a.mantissa) :
    ∃ s hm, x.toModel.unpack = .finite s a.mantissa a.exponent hm ∧ (s == .negative) = a.negative := by
  have hpos := bit_pos 52
  obtain ⟨s, hm, hu⟩ := unpack_of_parts? h (by omega)
  rw [parts?_eq, hu] at h
  exact ⟨s, hm, hu, congrArg Dyadic.negative (Option.some.inj h)⟩

theorem signFactor_mul (s t : Sign) : Dyadic.signFactor (s * t == .negative) =
    Dyadic.signFactor (s == .negative) * Dyadic.signFactor (t == .negative) := by
  cases s <;> cases t <;> rfl

theorem signFactor_div (s t : Sign) : Dyadic.signFactor (s / t == .negative) =
    Dyadic.signFactor (s == .negative) * Dyadic.signFactor (t == .negative) := by
  cases s <;> cases t <;> rfl

theorem isNearest_mul (hx : parts? x = some a) (hy : parts? y = some b) (ha : bit 52 ≤ a.mantissa)
    (hb : bit 52 ≤ b.mantissa) (hleast : -1126 ≤ a.exponent + b.exponent) (hmost : a.exponent + b.exponent ≤ 917) :
    IsNearest (a.value * b.value) (x * y) := by
  obtain ⟨s, hm, hu, hs⟩ := exists_unpack hx ha
  obtain ⟨t, hm', hv, ht⟩ := exists_unpack hy hb
  have hlow : 104 ≤ (a.mantissa * b.mantissa).log2 :=
    le_log2_of_bit_le (bit_add 52 52 ▸ Nat.mul_le_mul ha hb)
  have hhigh : (a.mantissa * b.mantissa).log2 ≤ 105 := by
    refine log2_le_of_lt_bit ?_
    rw [show bit (105 + 1) = bit 53 * bit 53 from bit_add 53 53]
    exact Nat.mul_lt_mul'' (canonical_of_parts? hx).mantissa_lt (canonical_of_parts? hy).mantissa_lt
  have hvalue : a.value * b.value = Dyadic.signFactor (s * t == .negative) *
      (((a.mantissa * b.mantissa : ℕ) + 0) * 2 ^ (a.exponent + b.exponent)) := by
    rw [signFactor_mul, hs, ht, Dyadic.value, Dyadic.value, zpow_add₀ two_ne_zero]
    push_cast
    ring
  change IsNearest _ (Float.ofModel (Float.Model.pack (UnpackedFloat.mul .binary64 x.toModel.unpack y.toModel.unpack)))
  rw [hu, hv, hvalue]
  exact isNearest_roundWithAccuracy (s * t) (rfl : Leaves .exact 0) (by omega) (by omega) (by omega)

theorem isNearest_div (hx : parts? x = some a) (hy : parts? y = some b) (ha : bit 52 ≤ a.mantissa)
    (hb : bit 52 ≤ b.mantissa) (hleast : -1021 ≤ a.exponent - b.exponent) (hmost : a.exponent - b.exponent ≤ 1022) :
    IsNearest (a.value / b.value) (x / y) := by
  obtain ⟨s, hm, hu, hs⟩ := exists_unpack hx ha
  obtain ⟨t, hm', hv, ht⟩ := exists_unpack hy hb
  have hloga := ((canonical_of_parts? hx).log2_eq hm.ne').mpr ha
  have hlogb := ((canonical_of_parts? hy).log2_eq hm'.ne').mpr hb
  have hexponent : min (a.exponent - b.exponent)
      (max (totalExponent a.mantissa a.exponent - totalExponent b.mantissa b.exponent - 53) (-1074)) =
        a.exponent - b.exponent - 53 := by
    rw [totalExponent, totalExponent, hloga, hlogb]
    omega
  have hshift : (a.exponent - b.exponent - (a.exponent - b.exponent - 53)).toNat = 53 := by omega
  have hscaled : a.mantissa <<< 53 = a.mantissa * bit 53 := by
    rw [Nat.shiftLeft_eq, bit_eq]
  -- Both mantissas have 53 bits, so the shifted quotient has 53 or 54.
  have hlow : 52 ≤ (a.mantissa * bit 53 / b.mantissa).log2 := by
    refine le_log2_of_bit_le ((Nat.le_div_iff_mul_le hm').mpr ?_)
    exact Nat.mul_le_mul ha (Nat.le_of_lt (canonical_of_parts? hy).mantissa_lt)
  have hhigh : (a.mantissa * bit 53 / b.mantissa).log2 ≤ 53 := by
    refine log2_le_of_lt_bit ((Nat.div_lt_iff_lt_mul hm').mpr ?_)
    calc a.mantissa * bit 53 < bit 53 * bit 53 :=
          Nat.mul_lt_mul_of_pos_right (canonical_of_parts? hx).mantissa_lt (bit_pos 53)
      _ = bit (53 + 1) * bit 52 := by rw [← bit_add, ← bit_add]
      _ ≤ bit (53 + 1) * b.mantissa := Nat.mul_le_mul_left _ hb
  have hvalue : a.value / b.value = Dyadic.signFactor (s / t == .negative) *
      (((a.mantissa * bit 53 / b.mantissa : ℕ) + (a.mantissa * bit 53 % b.mantissa : ℕ) / (b.mantissa : ℚ)) *
        2 ^ (a.exponent - b.exponent - 53)) := by
    have hunit : (2 : ℚ) ^ (a.exponent - b.exponent) = 2 ^ 53 * 2 ^ (a.exponent - b.exponent - 53) :=
      two_zpow_eq _ 53
    rw [signFactor_div, hs, ht, Dyadic.value_div, cast_div_add_mod hm'.ne', Nat.cast_mul, cast_bit, hunit, Int.cast_mul]
    ring
  change IsNearest _ (Float.ofModel (Float.Model.pack (UnpackedFloat.div .binary64 x.toModel.unpack y.toModel.unpack)))
  rw [hu, hv, UnpackedFloat.div, divCore, targetExponent_binary64]
  dsimp only
  rw [hexponent, hshift, hscaled, hvalue]
  have hleaves := leaves_accuracyOfFraction hm' (Nat.mod_lt (a.mantissa * bit 53) hm')
  exact isNearest_roundWithAccuracy (s / t) hleaves hlow (by omega) (by omega)

/-- Multiplying a finite double by one changes nothing. -/
theorem mul_of_beq_one (hx : x.isFinite = true) (hy : (y == 1.0) = true) : x * y = x := by
  obtain ⟨hm', hv⟩ := unpack_of_beq_one hy
  have hsign (s : Sign) : s * .positive = s := by cases s <;> rfl
  have hsame : UnpackedFloat.mul .binary64 x.toModel.unpack y.toModel.unpack = x.toModel.unpack := by
    rw [hv]
    rcases unpack_of_isFinite hx with ⟨s, hu⟩ | ⟨s, m, e, hm, hcanonical, hu⟩
    · rw [hu, UnpackedFloat.mul, hsign]
    · rw [hu, UnpackedFloat.mul, hsign]
      exact roundWithAccuracy_exact s hcanonical hm 52
  change Float.ofModel (Float.Model.pack (UnpackedFloat.mul .binary64 x.toModel.unpack y.toModel.unpack)) = x
  rw [hsame, ofModel_pack_unpack]

theorem parts?_neg (h : parts? x = some a) : parts? (-x) = some { a with negative := !a.negative } := by
  have hsign (s : Sign) : (-s == .negative) = !(s == .negative) := by cases s <;> rfl
  have hcanonical := canonical_of_parts? h
  have hfinite : x.isFinite = true := by rw [isFinite_eq, h, Option.isSome_some]
  rw [parts?_eq] at h
  change parts? (Float.ofModel (Float.Model.pack x.toModel.unpack.neg)) = _
  rcases unpack_of_isFinite hfinite with ⟨s, hu⟩ | ⟨s, m, e, hm, hcanonical, hu⟩
  · rw [hu] at h ⊢
    obtain rfl := Option.some.inj h
    cases s <;> decide +kernel
  · rw [hu] at h ⊢
    obtain rfl := Option.some.inj h
    exact (parts?_pack (-s) hcanonical hm).trans (by rw [hsign])

theorem value_neg (a : Dyadic) : Dyadic.value { a with negative := !a.negative } = -a.value := by
  obtain ⟨negative, m, e⟩ := a
  cases negative <;> simp [Dyadic.value, Dyadic.signFactor]

/-- Rounding is the same on both sides of zero. -/
theorem IsNearest.neg {q : ℚ} (h : IsNearest q x) : IsNearest (-q) (-x) := by
  obtain ⟨d, hd, hleast⟩ := h
  have hmirror (v : ℚ) : |-v - -q| = |v - q| := by rw [← neg_sub', abs_neg]
  refine ⟨_, parts?_neg hd, fun y d' hd' => ?_⟩
  obtain ⟨hle, htie⟩ := hleast (-y) _ (parts?_neg hd')
  have hother : |Dyadic.value { d' with negative := !d'.negative } - q| = |d'.value - -q| := by
    rw [value_neg, ← hmirror, neg_neg]
  rw [hother] at hle htie
  rw [value_neg, hmirror]
  refine ⟨hle, fun heq => (htie heq).imp (fun hsame => ?_) id⟩
  rw [← hsame, value_neg, neg_neg]

end

end Double
end SignalBridge
