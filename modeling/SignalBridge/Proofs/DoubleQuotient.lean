import SignalBridge.Proofs.DoubleParts

/-! Arithmetic that stays among the finite doubles. Packing loses nothing below the largest exponent, and rounding
    raises an exponent by one at most. So a finite double divided by one that is not below two in size is finite,
    and subtracting zero or dividing by one changes nothing. -/

namespace SignalBridge
namespace Double
open Float.Model Float.Model.UnpackedFloat

/-! ### Packing -/

/-- The result of an operation is finite and does not exceed an exponent. -/
inductive Bounded (most : Int) : UnpackedFloat → Prop
  | zero (s : Sign) : Bounded most (.zero s)
  | finite (s : Sign) {m : Nat} {e : Int} (hm : 0 < m) (he : e ≤ most) : Bounded most (.finite s m e hm)

theorem Bounded.mono {low high : Int} {u : UnpackedFloat} (h : Bounded low u) (hle : low ≤ high) :
    Bounded high u := by
  cases h with
  | zero s => exact .zero s
  | finite s hm he => exact .finite s hm (Int.le_trans he hle)

/-- Below the largest exponent, only the mantissas of 53 bits have a field of the exponent above zero. -/
theorem pack_finite {m : Nat} {e : Int} (he : e ≤ 971) (s : Sign) (hm : 0 < m) :
    UnpackedFloat.pack .binary64 (.finite s m e hm) =
      packComponents .binary64 s (if m.log2 = 52 then BitVec.ofNat 11 (e + 1075).toNat else 0#11)
        (BitVec.ofNat 52 m) := by
  have hlog : m.log2 + 1 = Format.binary64.mantissaBits ↔ m.log2 = 52 := by
    have hwidth : Format.binary64.mantissaBits = 53 := rfl
    omega
  have hbiased : (e + Format.binary64.exponentBias + Format.binary64.mantissaBitsWithoutImplicit).toNat =
      (e + 1075).toNat := by
    have hbias : Format.binary64.exponentBias = 1023 := rfl
    have hwidth : Format.binary64.mantissaBitsWithoutImplicit = 52 := rfl
    rw [hbias, hwidth]
    omega
  have hfits : ¬Nat.pow 2 11 ≤ (e + 1075).toNat + 1 := by
    have hpow : Nat.pow 2 11 = 2048 := rfl
    omega
  rw [UnpackedFloat.pack]
  dsimp only
  rw [hbiased]
  refine (if_neg hfits).trans ?_
  by_cases hfull : m.log2 = 52
  · rw [if_pos hfull]
    exact if_pos (hlog.mpr hfull)
  · rw [if_neg hfull]
    exact if_neg (mt hlog.mp hfull)

theorem isFinite_unpack {b : BitVec Format.binary64.numBits} (h : unpackExponent b ≠ -1#_) :
    (UnpackedFloat.unpack .binary64 b).isFinite = true := by
  rw [UnpackedFloat.unpack]
  dsimp only
  rw [if_neg h]
  split
  · split <;> rfl
  · rfl

theorem isFinite_pack {u : UnpackedFloat} (h : Bounded 971 u) :
    (Float.ofModel (Float.Model.pack u)).isFinite = true := by
  refine isFinite_unpack (b := UnpackedFloat.pack .binary64 u) ?_
  cases h with
  | zero s =>
    rw [UnpackedFloat.pack, packedZero, unpackExponent_packComponents]
    decide
  | @finite s m e hm he =>
    rw [pack_finite he, unpackExponent_packComponents]
    split
    · rw [ne_eq, ← BitVec.toNat_inj, BitVec.toNat_ofNat]
      change ¬(e + 1075).toNat % 2048 = 2047
      omega
    · decide

theorem isFinite_neg {x : Float} (h : x.isFinite = true) : (-x).isFinite = true := by
  change (Float.ofModel (Float.Model.pack x.toModel.unpack.neg)).isFinite = true
  refine isFinite_pack ?_
  rcases unpack_of_isFinite h with ⟨s, hu⟩ | ⟨s, m, e, hm, hcanonical, hu⟩
  · rw [hu]
    exact .zero _
  · rw [hu]
    exact .finite _ hm hcanonical.exponent_le

/-! ### Rounding -/

theorem targetExponent_binary64 (t : Int) : Format.binary64.targetExponent t = max (t - 53) (-1074) := rfl

theorem mantissa_shiftRight (em : ExtendedMantissa) (k : Nat) : (em >>> k).mantissa = em.mantissa / bit k := by
  induction k with
  | zero => exact (Nat.div_one _).symm
  | succ k ih =>
    change (em >>> k).mantissa / 2 = em.mantissa / bit (k + 1)
    rw [ih, Nat.div_div_eq_div_mul, bit_add]
    rfl

theorem mantissa_ofMantissaAndAccuracy (m : Nat) (accuracy : Accuracy) :
    (ExtendedMantissa.ofMantissaAndAccuracy m accuracy).mantissa = m := by
  cases accuracy with
  | exact => rfl
  | inexact o => cases o <;> rfl

theorem roundedMantissa_le (em : ExtendedMantissa) : em.roundedMantissa ≤ em.mantissa + 1 := by
  unfold ExtendedMantissa.roundedMantissa
  cases em.accuracy with
  | exact => exact Nat.le_succ _
  | inexact o =>
    cases o with
    | lt => exact Nat.le_succ _
    | eq =>
      change em.mantissa + em.mantissa % 2 ≤ em.mantissa + 1
      omega
    | gt => exact Nat.le_refl _

section
variable {m : Nat} {e : Int} {accuracy : Accuracy}

theorem exponent_shiftToTargetExponent :
    (shiftToTargetExponent .binary64 m e accuracy).2 = max e (max (m.log2 + e - 52) (-1074)) := by
  change e + ((max ((m.log2 + 1 + e : Int) - 53) (-1074) - e).toNat : Int) = _
  omega

theorem mantissa_shiftToTargetExponent_lt : (shiftToTargetExponent .binary64 m e accuracy).1.mantissa < bit 53 := by
  change (ExtendedMantissa.ofMantissaAndAccuracy m accuracy >>>
    (max ((m.log2 + 1 + e : Int) - 53) (-1074) - e).toNat).mantissa < bit 53
  rw [mantissa_shiftRight, mantissa_ofMantissaAndAccuracy]
  generalize hk : (max ((m.log2 + 1 + e : Int) - 53) (-1074) - e).toNat = k
  have hlog : m.log2 + 1 ≤ 53 + k := by omega
  have hlt : m < bit 53 * bit k := by
    rw [← bit_add, bit_eq]
    exact Nat.lt_of_lt_of_le Nat.lt_log2_self (Nat.pow_le_pow_right (by decide) hlog)
  exact (Nat.div_lt_iff_lt_mul (bit_pos k)).mpr hlt

/-- Rounding raises the exponent that 53 bits of a number have by one at most. -/
theorem bounded_roundWithAccuracy (s : Sign) :
    Bounded (max e (max (m.log2 + e - 52) (-1074)) + 1) (roundWithAccuracy .binary64 s m e accuracy) := by
  have hexponent : (shiftToTargetExponent .binary64 m e accuracy).2 = _ := exponent_shiftToTargetExponent
  have hmantissa : (shiftToTargetExponent .binary64 m e accuracy).1.mantissa < bit 53 :=
    mantissa_shiftToTargetExponent_lt
  rw [roundWithAccuracy]
  generalize shiftToTargetExponent .binary64 m e accuracy = shifted at hexponent hmantissa
  dsimp only
  have hrounded := roundedMantissa_le shifted.1
  generalize shifted.1.roundedMantissa = rounded at hrounded
  have hlog : rounded.log2 ≤ 53 :=
    log2_le_of_lt_bit (Nat.lt_of_le_of_lt (Nat.le_trans hrounded hmantissa) (by decide : bit 53 < bit 54))
  have hfinal : (shiftToTargetExponent .binary64 rounded shifted.2 .exact).2 = _ := exponent_shiftToTargetExponent
  split
  · exact .zero s
  · refine .finite s _ ?_
    rw [hfinal, ← hexponent]
    omega

theorem shiftRight_exact (m k : Nat) :
    (⟨m * bit k, false, false⟩ : ExtendedMantissa) >>> k = ⟨m, false, false⟩ := by
  induction k generalizing m with
  | zero =>
    rw [show bit 0 = 1 from rfl, Nat.mul_one]
    rfl
  | succ k ih =>
    have hdouble : m * bit (k + 1) = 2 * m * bit k := by
      rw [bit_add, show bit 1 = 2 from rfl]
      ring
    have hlast : (2 * m) % 2 = 0 := Nat.mul_mod_right 2 m
    rw [hdouble]
    change ((⟨2 * m * bit k, false, false⟩ : ExtendedMantissa) >>> k).shiftRightOne = ⟨m, false, false⟩
    rw [ih, ExtendedMantissa.shiftRightOne, hlast, Nat.mul_div_cancel_left m (by decide)]
    rfl

theorem shiftToTargetExponent_exact (h : Canonical m e) (hm : m ≠ 0) (k : Nat) :
    shiftToTargetExponent .binary64 (m * bit k) (e - k) .exact = (⟨m, false, false⟩, e) := by
  have hlog : (max (((m * bit k).log2 + 1 + (e - k) : Int) - 53) (-1074) - (e - k)).toNat = k := by
    have hupper := h.log2_le
    have hfull := h.log2_eq hm
    have hlow := h.le_exponent
    have hnormal := h.normal
    rw [log2_mul_bit hm]
    omega
  change (ExtendedMantissa.mk (m * bit k) false false >>>
    (max (((m * bit k).log2 + 1 + (e - k) : Int) - 53) (-1074) - (e - k)).toNat,
      e - k + ((max (((m * bit k).log2 + 1 + (e - k) : Int) - 53) (-1074) - (e - k)).toNat : Int)) = _
  rw [hlog, shiftRight_exact, Int.sub_add_cancel]

/-- A number that a double can have is not changed, also if it is given with zeros at the end. -/
theorem roundWithAccuracy_exact (s : Sign) (h : Canonical m e) (hm : 0 < m) (k : Nat) :
    roundWithAccuracy .binary64 s (m * bit k) (e - k) .exact = .finite s m e hm := by
  have hfirst := shiftToTargetExponent_exact h (Nat.ne_of_gt hm) k
  have hsecond := shiftToTargetExponent_exact h (Nat.ne_of_gt hm) 0
  have hself : m * bit 0 = m := Nat.mul_one m
  rw [hself, Int.natCast_zero, Int.sub_zero] at hsecond
  have hrounded : (⟨m, false, false⟩ : ExtendedMantissa).roundedMantissa = m := rfl
  rw [roundWithAccuracy, hfirst]
  simp only [hrounded, hsecond]
  exact dif_neg (Nat.ne_of_gt hm)

end

/-! ### Operations -/

section
variable {x y : Float} {b : Dyadic}

theorem log2_le_of_mul_le {q m n k : Nat} (hq : q ≠ 0) (hm : m ≠ 0) (h : q * m ≤ n * bit k) :
    q.log2 + m.log2 ≤ n.log2 + k := by
  have hlow : bit (q.log2 + m.log2) ≤ q * m := by
    rw [bit_add]
    exact Nat.mul_le_mul (bit_log2_le hq) (bit_log2_le hm)
  have hhigh : n * bit k < bit (n.log2 + 1 + k) := by
    rw [bit_add]
    exact Nat.mul_lt_mul_of_pos_right (lt_bit_log2 n) (bit_pos k)
  have hlt : bit (q.log2 + m.log2) < bit (n.log2 + 1 + k) := Nat.lt_of_le_of_lt (Nat.le_trans hlow h) hhigh
  rw [bit_eq, bit_eq] at hlt
  have := (Nat.pow_lt_pow_iff_right (by decide : 1 < 2)).mp hlt
  omega

/-- A finite double divided by a number that is not below two in size is finite. -/
theorem isFinite_div (hx : x.isFinite = true) (hy : parts? y = some b) (hb : 1 ≤ b.mantissa.log2 + b.exponent) :
    (x / y).isFinite = true := by
  have hne : b.mantissa ≠ 0 := by
    intro hzero
    have hexponent := (canonical_of_parts? hy).normal
    have hpos := bit_pos 52
    rw [hzero, Nat.log2_zero] at hb
    omega
  obtain ⟨s', hm', hv⟩ := unpack_of_parts? hy hne
  change (Float.ofModel (Float.Model.pack
    (UnpackedFloat.div .binary64 x.toModel.unpack y.toModel.unpack))).isFinite = true
  rw [hv]
  refine isFinite_pack ?_
  rcases unpack_of_isFinite hx with ⟨s, hu⟩ | ⟨s, m, e, hm, hcanonical, hu⟩
  · rw [hu]
    exact .zero _
  · rw [hu, UnpackedFloat.div, divCore, targetExponent_binary64]
    dsimp only
    generalize ht : min (e - b.exponent)
      (max (totalExponent m e - totalExponent b.mantissa b.exponent - 53) (-1074)) = t
    rw [totalExponent, totalExponent] at ht
    generalize hk : (e - b.exponent - t).toNat = k
    have hlog := hcanonical.log2_le
    have hexponent := hcanonical.exponent_le
    -- The quotient has no more bits above the unit than the dividend.
    have hquotient : ((m <<< k / b.mantissa).log2 : Int) + t ≤ e + 51 ∨ m <<< k / b.mantissa = 0 := by
      by_cases hzero : m <<< k / b.mantissa = 0
      · exact .inr hzero
      · have hle : m <<< k / b.mantissa * b.mantissa ≤ m * bit k := by
          rw [bit_eq]
          exact Nat.shiftLeft_eq .. ▸ Nat.div_mul_le_self ..
        have := log2_le_of_mul_le hzero hne hle
        exact .inl (by omega)
    refine (bounded_roundWithAccuracy _).mono ?_
    rcases hquotient with hquotient | hzero
    · omega
    · rw [hzero, Nat.log2_zero]
      omega

/-! ### Neutral operands -/

theorem unpack_of_beq_zero (h : (y == 0.0) = true) : ∃ s, y.toModel.unpack = .zero s := by
  obtain ⟨-, -, rfl | ⟨rfl, -⟩ | ⟨rfl, -⟩⟩ := Float.beq_iff_ne_nan_and_eq.mp h
  · exact ⟨.positive, rfl⟩
  · exact ⟨.positive, rfl⟩
  · exact ⟨.negative, rfl⟩

theorem unpack_of_beq_one (h : (y == 1.0) = true) :
    ∃ hm, y.toModel.unpack = .finite .positive (bit 52) (-52) hm := by
  obtain ⟨-, -, rfl | ⟨-, hone⟩ | ⟨-, hone⟩⟩ := Float.beq_iff_ne_nan_and_eq.mp h
  · exact ⟨bit_pos 52, rfl⟩
  · exact absurd (congrArg Float.toBits hone) (by decide +kernel)
  · exact absurd (congrArg Float.toBits hone) (by decide +kernel)

/-- Subtracting a zero of either sign changes no double but a negative zero. -/
theorem sub_of_beq_zero (hx : x.isFinite = true) (hsign : x.toModel.unpack ≠ .zero .negative)
    (hy : (y == 0.0) = true) : x - y = x := by
  obtain ⟨t, hv⟩ := unpack_of_beq_zero hy
  have hsame : UnpackedFloat.sub .binary64 x.toModel.unpack y.toModel.unpack = x.toModel.unpack := by
    rw [hv]
    rcases unpack_of_isFinite hx with ⟨s, hu⟩ | ⟨s, m, e, hm, -, hu⟩
    · rw [hu]
      cases s with
      | negative => exact absurd hu hsign
      | positive => cases t <;> rfl
    · rw [hu]
      rfl
  change Float.ofModel (Float.Model.pack (UnpackedFloat.sub .binary64 x.toModel.unpack y.toModel.unpack)) = x
  rw [hsame, ofModel_pack_unpack]

/-- Dividing a finite double by one changes nothing. -/
theorem div_of_beq_one (hx : x.isFinite = true) (hy : (y == 1.0) = true) : x / y = x := by
  obtain ⟨hm', hv⟩ := unpack_of_beq_one hy
  have hsign (s : Sign) : s / .positive = s := by cases s <;> rfl
  have hsame : UnpackedFloat.div .binary64 x.toModel.unpack y.toModel.unpack = x.toModel.unpack := by
    rw [hv]
    rcases unpack_of_isFinite hx with ⟨s, hu⟩ | ⟨s, m, e, hm, hcanonical, hu⟩
    · rw [hu, UnpackedFloat.div, hsign]
    · rw [hu, UnpackedFloat.div, divCore, targetExponent_binary64, hsign]
      dsimp only
      generalize ht : min (e - -52) (max (totalExponent m e - totalExponent (bit 52) (-52) - 53) (-1074)) = t
      have hone : totalExponent (bit 52) (-52) = 1 := rfl
      rw [totalExponent, hone] at ht
      obtain ⟨k, hk⟩ : ∃ k : Nat, t = e - k := by
        have hlog := hcanonical.log2_le
        have hlow := hcanonical.le_exponent
        exact ⟨(e - t).toNat, by omega⟩
      have hshift : (e - -52 - t).toNat = k + 52 := by omega
      have hscaled : m <<< (k + 52) = m * bit k * bit 52 := by
        rw [Nat.shiftLeft_eq, Nat.mul_assoc, ← bit_add, bit_eq]
        rfl
      rw [hshift, hscaled, Nat.mul_div_cancel _ (bit_pos 52), Nat.mul_mod_left, hk]
      exact roundWithAccuracy_exact s hcanonical hm k
  change Float.ofModel (Float.Model.pack (UnpackedFloat.div .binary64 x.toModel.unpack y.toModel.unpack)) = x
  rw [hsame, ofModel_pack_unpack]

end

end Double
end SignalBridge
