import Mathlib
import SignalBridge.Double.Rounding
import SignalBridge.Proofs.WholeDouble

/-! Doubles as the numbers that they stand for. The bits of a double and its parts determine each other, and both
    agree with the sign, mantissa and exponent that arithmetic unpacks a double into and packs its results from. -/

namespace SignalBridge

/-! ### Powers of two -/

section
variable {m n k : Nat}

theorem bit_le_bit (h : m ≤ n) : bit m ≤ bit n := by
  rw [bit_eq, bit_eq]
  exact Nat.pow_le_pow_right (by decide) h

theorem bit_lt_bit (h : m < n) : bit m < bit n := by
  rw [bit_eq, bit_eq]
  exact Nat.pow_lt_pow_right (by decide) h

theorem bit_of_eq_add (h : k = m + n) : bit k = bit m * bit n := by
  rw [h, bit_add]

theorem bit_log2_le (hn : n ≠ 0) : bit n.log2 ≤ n := by
  rw [bit_eq]
  exact Nat.log2_self_le hn

theorem lt_bit_log2 (n : Nat) : n < bit (n.log2 + 1) := by
  rw [bit_eq]
  exact Nat.lt_log2_self

theorem le_log2_of_bit_le (h : bit k ≤ n) : k ≤ n.log2 := by
  have hn : n ≠ 0 := Nat.ne_of_gt (Nat.lt_of_lt_of_le (bit_pos k) h)
  rw [bit_eq] at h
  exact (Nat.le_log2 hn).mpr h

theorem log2_le_of_lt_bit (h : n < bit (k + 1)) : n.log2 ≤ k := by
  by_cases hn : n = 0
  · rw [hn, Nat.log2_zero]
    exact Nat.zero_le k
  · rw [bit_eq] at h
    exact Nat.le_of_lt_succ ((Nat.log2_lt hn).mpr h)

end

namespace Double
open Float.Model Float.Model.UnpackedFloat

/-! ### Fields of the bits -/

section
variable {b : BitVec Format.binary64.numBits}

theorem toNat_unpackMantissa : (unpackMantissa b).toNat = b.toNat % bit 52 := by
  rw [unpackMantissa_def, BitVec.extractLsb'_toNat, Nat.shiftRight_zero, bit_eq]
  rfl

theorem toNat_unpackExponent : (unpackExponent b).toNat = b.toNat / bit 52 % bit 11 := by
  rw [unpackExponent_def, BitVec.extractLsb'_toNat, Nat.shiftRight_eq_div_pow, bit_eq, bit_eq]
  rfl

theorem toNat_unpackSign : (unpackSign b).toNat = b.toNat / bit 63 := by
  have hlt : b.toNat / bit 63 < 2 := Nat.div_lt_of_lt_mul (show b.toNat < bit 63 * 2 from b.isLt)
  rw [unpackSign_def, BitVec.extractLsb'_toNat, Nat.shiftRight_eq_div_pow, ← Nat.mod_eq_of_lt hlt, bit_eq]
  rfl

theorem toNat_implicit (v : BitVec 52) : (1#1 ++ v).toNat = bit 52 + v.toNat := by
  rw [BitVec.toNat_append, ← Nat.shiftLeft_add_eq_or_of_lt v.isLt]
  rfl

end

/-! ### Finite doubles -/

/-- A mantissa and an exponent that a double can have: 53 bits are used unless the exponent is the least one. -/
structure Canonical (mantissa : Nat) (exponent : Int) : Prop where
  mantissa_lt : mantissa < bit 53
  le_exponent : -1074 ≤ exponent
  exponent_le : exponent ≤ 971
  normal : bit 52 ≤ mantissa ∨ exponent = -1074

theorem Canonical.log2_le {m : Nat} {e : Int} (h : Canonical m e) : m.log2 ≤ 52 :=
  log2_le_of_lt_bit h.mantissa_lt

theorem Canonical.log2_eq {m : Nat} {e : Int} (h : Canonical m e) (hm : m ≠ 0) : m.log2 = 52 ↔ bit 52 ≤ m := by
  refine ⟨fun hlog => ?_, fun hfull => Nat.le_antisymm h.log2_le (le_log2_of_bit_le hfull)⟩
  rw [← hlog]
  exact bit_log2_le hm

section
variable {b : BitVec Format.binary64.numBits}

theorem unpackExponent_eq_ones : unpackExponent b = -1#_ ↔ b.toNat / bit 52 % bit 11 = 2047 := by
  rw [← BitVec.toNat_inj, toNat_unpackExponent]
  rfl

theorem unpackExponent_eq_zero : unpackExponent b = 0#_ ↔ b.toNat / bit 52 % bit 11 = 0 := by
  rw [← BitVec.toNat_inj, toNat_unpackExponent]
  rfl

theorem unpackMantissa_eq_zero : unpackMantissa b = 0#_ ↔ b.toNat % bit 52 = 0 := by
  rw [← BitVec.toNat_inj, toNat_unpackMantissa]
  rfl

theorem sign_beq_negative : (Sign.ofBitVec (unpackSign b) == .negative) = decide (b.toNat / bit 63 = 1) := by
  rw [← toNat_unpackSign]
  generalize unpackSign b = v
  revert v
  decide

end

/-! ### Parts -/

/-- The parts of an unpacked double. -/
def ofUnpacked? : UnpackedFloat → Option Dyadic
  | .zero s => some ⟨s == .negative, 0, -1074⟩
  | .finite s m e _ => some ⟨s == .negative, m, e⟩
  | .infinity _ | .notANumber => none

theorem parts?_eq (x : Float) : parts? x = ofUnpacked? x.toModel.unpack := by
  have hbits : x.toBits.toNat = x.toModel.toBits.toBitVec.toNat := rfl
  have hmodel : x.toModel.unpack = UnpackedFloat.unpack .binary64 x.toModel.toBits.toBitVec := rfl
  generalize x.toModel.toBits.toBitVec = b at hbits hmodel
  have hbias : Format.binary64.exponentBias = 1023 := rfl
  rw [hmodel, parts?, hbits, UnpackedFloat.unpack]
  dsimp only
  by_cases hexponent : b.toNat / bit 52 % bit 11 = 2047
  · rw [if_pos hexponent, if_pos (unpackExponent_eq_ones.mpr hexponent)]
    split <;> rfl
  · rw [if_neg hexponent, if_neg (mt unpackExponent_eq_ones.mp hexponent)]
    by_cases hzero : b.toNat / bit 52 % bit 11 = 0
    · rw [if_pos hzero, if_pos (unpackExponent_eq_zero.mpr hzero)]
      split
      case isTrue h => rw [unpackMantissa_eq_zero.mp h, ofUnpacked?, sign_beq_negative]
      case isFalse h =>
        rw [ofUnpacked?, sign_beq_negative, toNat_unpackMantissa, toNat_unpackExponent, hzero, hbias]
        rfl
    · rw [if_neg hzero, if_neg (mt unpackExponent_eq_zero.mp hzero), ofUnpacked?, sign_beq_negative, toNat_implicit,
        toNat_unpackMantissa, toNat_unpackExponent, hbias]
      rfl

theorem isFinite_eq (x : Float) : x.isFinite = (parts? x).isSome := by
  rw [parts?_eq]
  change x.toModel.unpack.isFinite = _
  cases x.toModel.unpack <;> rfl

theorem canonical_of_parts? {x : Float} {d : Dyadic} (h : parts? x = some d) : Canonical d.mantissa d.exponent := by
  have hdouble : bit 53 = 2 * bit 52 := by decide
  have hfraction : x.toBits.toNat % bit 52 < bit 52 := Nat.mod_lt _ (bit_pos 52)
  have hexponent : x.toBits.toNat / bit 52 % bit 11 < 2048 := Nat.mod_lt _ (by decide)
  unfold parts? at h
  dsimp only at h
  split at h
  · cases h
  · split at h
    · obtain rfl := Option.some.inj h
      refine ⟨?_, Int.le_refl _, ?_, .inr rfl⟩ <;> dsimp only <;> omega
    · obtain rfl := Option.some.inj h
      refine ⟨?_, ?_, ?_, .inl (Nat.le_add_right ..)⟩ <;> dsimp only <;> omega

/-- A finite double is unpacked into a zero or into a mantissa and an exponent. -/
theorem unpack_of_isFinite {x : Float} (h : x.isFinite = true) :
    (∃ s, x.toModel.unpack = .zero s) ∨ ∃ s m e hm, Canonical m e ∧ x.toModel.unpack = .finite s m e hm := by
  rw [isFinite_eq, Option.isSome_iff_exists] at h
  obtain ⟨d, hd⟩ := h
  have hcanonical := canonical_of_parts? hd
  rw [parts?_eq] at hd
  cases hu : x.toModel.unpack with
  | zero s => exact .inl ⟨s, rfl⟩
  | finite s m e hm =>
    rw [hu] at hd
    obtain rfl := Option.some.inj hd
    exact .inr ⟨s, m, e, hm, hcanonical, rfl⟩
  | infinity s =>
    rw [hu] at hd
    cases hd
  | notANumber =>
    rw [hu] at hd
    cases hd

theorem unpack_of_parts? {x : Float} {d : Dyadic} (h : parts? x = some d) (hd : d.mantissa ≠ 0) :
    ∃ s hm, x.toModel.unpack = .finite s d.mantissa d.exponent hm := by
  have hfinite : x.isFinite = true := by rw [isFinite_eq, h, Option.isSome_some]
  rw [parts?_eq] at h
  rcases unpack_of_isFinite hfinite with ⟨s, hu⟩ | ⟨s, m, e, hm, -, hu⟩
  · rw [hu] at h
    obtain rfl := Option.some.inj h
    exact absurd rfl hd
  · rw [hu] at h
    obtain rfl := Option.some.inj h
    exact ⟨s, hm, hu⟩

/-- A double is packed from what it is unpacked into. -/
theorem ofModel_pack_unpack (x : Float) : Float.ofModel (Float.Model.pack x.toModel.unpack) = x :=
  Float.ofBits_toBits x

/-- Bits that are not those of a NaN are the bits of a double. -/
theorem toBits_ofBits {n : UInt64} (hn : n.toNat / bit 52 % bit 11 ≠ 2047) : (Float.ofBits n).toBits = n := by
  have hvalid : Format.binary64.Valid n.toBitVec :=
    ⟨fun hones => absurd (unpackExponent_eq_ones.mp hones) hn⟩
  exact congrArg UInt64.ofBitVec (pack_unpack_of_valid hvalid)

/-- The fields of bits below a sign. -/
theorem fields_signed (negative : Bool) {bits : Nat} (hbits : bits < 2048 * bit 52) :
    ((if negative then bit 63 else 0) + bits) % bit 52 = bits % bit 52 ∧
      ((if negative then bit 63 else 0) + bits) / bit 52 % bit 11 = bits / bit 52 ∧
        decide (((if negative then bit 63 else 0) + bits) / bit 63 = 1) = negative := by
  have hword : bit 63 = bit 52 * 2048 := by decide
  have hquotient : bits / bit 52 < 2048 := Nat.div_lt_of_lt_mul (Nat.mul_comm .. ▸ hbits)
  have hpos : 0 < bit 52 := bit_pos 52
  have hsmall : bits / bit 52 % bit 11 = bits / bit 52 := Nat.mod_eq_of_lt hquotient
  rw [hword]
  generalize bit 52 = unit at *
  cases negative with
  | true =>
    have hsign : (unit * 2048 + bits) / (unit * 2048) = 1 := by
      rw [Nat.add_div_left _ (by omega), Nat.div_eq_of_lt (by omega)]
    have hexponent : (unit * 2048 + bits) / unit = 2048 + bits / unit := by
      rw [Nat.mul_add_div hpos]
    rw [if_pos rfl, hsign, hexponent, Nat.mul_add_mod]
    exact ⟨rfl, (Nat.add_mod_left ..).trans hsmall, rfl⟩
  | false =>
    have hsign : bits / (unit * 2048) = 0 := Nat.div_eq_of_lt (by omega)
    rw [if_neg Bool.false_ne_true, Nat.zero_add, hsign]
    exact ⟨rfl, hsmall, rfl⟩

/-- The parts of the double that has the given bits below its sign. -/
theorem parts?_ofMagnitudeBits (negative : Bool) {bits : Nat} (hbits : bits < 2047 * bit 52) :
    parts? (ofMagnitudeBits negative bits) =
      some (if bits < bit 52 then ⟨negative, bits, -1074⟩
        else ⟨negative, bit 52 + bits % bit 52, (bits / bit 52 : Nat) - 1075⟩) := by
  have hmore : 2047 * bit 52 < 2048 * bit 52 := by decide
  obtain ⟨hfraction, hexponent, hsign⟩ := fields_signed negative (Nat.lt_trans hbits hmore)
  have hquotient : bits / bit 52 < 2047 := Nat.div_lt_of_lt_mul (Nat.mul_comm .. ▸ hbits)
  have hlow : bits / bit 52 = 0 ↔ bits < bit 52 := by
    rw [Nat.div_eq_zero_iff]
    exact or_iff_right (Nat.ne_of_gt (bit_pos 52))
  have hword : (if negative then bit 63 else 0) + bits < UInt64.size := by
    have hhalves : bit 63 + 2048 * bit 52 = UInt64.size := by decide
    have hle : (if negative then bit 63 else 0) ≤ bit 63 := by
      cases negative with
      | true => exact Nat.le_refl _
      | false => exact Nat.zero_le _
    exact Nat.lt_of_lt_of_le (Nat.add_lt_add_of_le_of_lt hle (Nat.lt_trans hbits hmore)) (Nat.le_of_eq hhalves)
  have htoNat := UInt64.toNat_ofNat_of_lt' hword
  have hself : (ofMagnitudeBits negative bits).toBits = UInt64.ofNat ((if negative then bit 63 else 0) + bits) := by
    refine toBits_ofBits ?_
    rw [htoNat, hexponent]
    exact Nat.ne_of_lt hquotient
  rw [parts?, hself, htoNat, hfraction, hexponent, hsign, if_neg (Nat.ne_of_lt hquotient)]
  by_cases hbelow : bits < bit 52
  · rw [if_pos (hlow.mpr hbelow), if_pos hbelow, Nat.mod_eq_of_lt hbelow]
  · rw [if_neg (mt hlow.mp hbelow), if_neg hbelow]

/-! ### Whole numbers -/

/-- The whole number that the double nearest to `n` stands for: beyond 53 bits the lowest ones are rounded off. -/
def nearestWhole (n : Nat) : Nat :=
  shiftToNearest n (n.log2 - 52) * bit (n.log2 - 52)

section
variable {n k : Nat}

theorem shiftToNearest_zero (n : Nat) : shiftToNearest n 0 = n := by
  have h := shiftToNearest_exact n 0
  rwa [show bit 0 = 1 from rfl, Nat.mul_one] at h

theorem shiftToNearest_bounds (n k : Nat) : n / bit k ≤ shiftToNearest n k ∧ shiftToNearest n k ≤ n / bit k + 1 := by
  unfold shiftToNearest
  dsimp only
  split <;> omega

/-- The mantissa of the double nearest to a whole number, before a carry. -/
def keptBits (n : Nat) : Nat :=
  if n.log2 ≤ 52 then n * bit (52 - n.log2) else shiftToNearest n (n.log2 - 52)

theorem keptBits_bounds (hn : n ≠ 0) : bit 52 ≤ keptBits n ∧ keptBits n ≤ bit 53 := by
  have hlow := bit_log2_le hn
  have hhigh := lt_bit_log2 n
  unfold keptBits
  split
  case isTrue hshort =>
    have hpos := bit_pos (52 - n.log2)
    have h52 : bit 52 = bit n.log2 * bit (52 - n.log2) := bit_of_eq_add (by omega)
    have h53 : bit 53 = bit (n.log2 + 1) * bit (52 - n.log2) := bit_of_eq_add (by omega)
    rw [h52, h53]
    exact ⟨Nat.mul_le_mul_right _ hlow, Nat.mul_le_mul_right _ (Nat.le_of_lt hhigh)⟩
  case isFalse hlong =>
    have hpos := bit_pos (n.log2 - 52)
    have hrounded := shiftToNearest_bounds n (n.log2 - 52)
    have h52 : bit n.log2 = bit 52 * bit (n.log2 - 52) := bit_of_eq_add (by omega)
    have h53 : bit (n.log2 + 1) = bit 53 * bit (n.log2 - 52) := bit_of_eq_add (by omega)
    have hlower : bit 52 ≤ n / bit (n.log2 - 52) := (Nat.le_div_iff_mul_le hpos).mpr (h52 ▸ hlow)
    have hupper : n / bit (n.log2 - 52) < bit 53 := (Nat.div_lt_iff_lt_mul hpos).mpr (h53 ▸ hhigh)
    omega

theorem keptBits_fits (hn : n ≠ 0) (hlog : n.log2 ≤ 1022) :
    (n.log2 + 1022) * bit 52 + keptBits n < 2047 * bit 52 := by
  have hhigh := (keptBits_bounds hn).2
  have hdouble : bit 53 = 2 * bit 52 := by decide
  have hle : (n.log2 + 1022) * bit 52 ≤ 2044 * bit 52 := Nat.mul_le_mul_right _ (by omega)
  have hpos := bit_pos 52
  omega

theorem magnitudeBits_whole (hn : n ≠ 0) (hlog : n.log2 ≤ 1022) :
    magnitudeBits n 0 = (n.log2 + 1022) * bit 52 + keptBits n := by
  have hunit : unitExponent n 0 = (n.log2 : Int) - 52 := by
    rw [unitExponent]
    omega
  have hkept : (if (n.log2 : Int) - 52 ≤ 0 then n * bit (0 - ((n.log2 : Int) - 52)).toNat
      else shiftToNearest n ((n.log2 : Int) - 52 - 0).toNat) = keptBits n := by
    unfold keptBits
    split
    case isTrue h =>
      rw [if_pos (by omega)]
      congr 2
      omega
    case isFalse h =>
      rw [if_neg (by omega)]
      congr 1
      omega
  have hexponent : ((n.log2 : Int) - 52 + 1074).toNat = n.log2 + 1022 := by omega
  rw [magnitudeBits, if_neg hn]
  dsimp only
  rw [hunit, hkept, hexponent]
  exact Nat.min_eq_right (Nat.le_of_lt (keptBits_fits hn hlog))

/-- The parts of the double nearest to a whole number. -/
theorem parts?_nearest (negative : Bool) (hn : n ≠ 0) (hlog : n.log2 ≤ 1022) :
    parts? (nearest ⟨negative, n, 0⟩) = some (if keptBits n < bit 53 then ⟨negative, keptBits n, (n.log2 : Int) - 52⟩
      else ⟨negative, bit 52, (n.log2 : Int) - 51⟩) := by
  obtain ⟨hlow, hhigh⟩ := keptBits_bounds hn
  have hdouble : bit 53 = 2 * bit 52 := by decide
  have hnormal : ¬(n.log2 + 1022) * bit 52 + keptBits n < bit 52 := by omega
  have hpos := bit_pos 52
  rw [nearest, magnitudeBits_whole hn hlog, parts?_ofMagnitudeBits negative (keptBits_fits hn hlog), if_neg hnormal,
    hdouble]
  by_cases hcarry : keptBits n < 2 * bit 52
  · have hfield : (n.log2 : Int) + (1023 : Nat) - 1075 = n.log2 - 52 := by omega
    obtain ⟨fraction, hfraction⟩ := Nat.exists_eq_add_of_le hlow
    have hsum : (n.log2 + 1022) * bit 52 + keptBits n = fraction + (n.log2 + 1023) * bit 52 := by
      rw [hfraction]
      ring
    have hlt : fraction < bit 52 := by omega
    rw [if_pos hcarry, hsum, Nat.add_mul_mod_self_right, Nat.add_mul_div_right _ _ hpos, Nat.mod_eq_of_lt hlt,
      Nat.div_eq_of_lt hlt, ← hfraction, Nat.zero_add, Nat.cast_add, hfield]
  · have hfield : (n.log2 : Int) + (1024 : Nat) - 1075 = n.log2 - 51 := by omega
    have hsum : (n.log2 + 1022) * bit 52 + keptBits n = (n.log2 + 1024) * bit 52 := by
      rw [Nat.le_antisymm (hdouble ▸ hhigh) (Nat.not_lt.mp hcarry)]
      ring
    rw [if_neg hcarry, hsum, Nat.mul_mod_left, Nat.mul_div_cancel _ hpos, Nat.add_zero, Nat.cast_add, hfield]

/-- The nearest double has no fewer bits than the whole number. -/
theorem exists_parts?_nearest (negative : Bool) (hn : n ≠ 0) (hlog : n.log2 ≤ 1022) :
    ∃ d, parts? (nearest ⟨negative, n, 0⟩) = some d ∧ (n.log2 : Int) ≤ d.mantissa.log2 + d.exponent := by
  have hparts := parts?_nearest negative hn hlog
  refine ⟨_, hparts, ?_⟩
  by_cases hcarry : keptBits n < bit 53
  · have hkept : 52 ≤ (keptBits n).log2 := le_log2_of_bit_le (keptBits_bounds hn).1
    rw [if_pos hcarry]
    dsimp only
    omega
  · have hkept : (bit 52).log2 = 52 := by decide
    rw [if_neg hcarry]
    dsimp only
    omega

theorem keptBits_mul_bit (hlog : 52 ≤ n.log2) : keptBits n * bit (n.log2 - 52) = nearestWhole n := by
  unfold keptBits nearestWhole
  split
  case isTrue hshort =>
    have heq : n.log2 = 52 := Nat.le_antisymm hshort hlog
    rw [heq, shiftToNearest_zero, show bit (52 - 52) = 1 from rfl, Nat.mul_one]
  case isFalse => rfl

/-- Up to 53 bits nothing is rounded off. -/
theorem nearestWhole_of_short (hlog : n.log2 ≤ 52) : nearestWhole n = n := by
  rw [nearestWhole, Nat.sub_eq_zero_of_le hlog, shiftToNearest_zero]
  exact Nat.mul_one n

theorem round_of_exponent (negative : Bool) (m k : Nat) :
    Dyadic.round ⟨negative, m, k⟩ = if negative then -((m * bit k : Nat) : Int) else (m * bit k : Nat) := by
  rw [Dyadic.round]
  dsimp only
  rw [if_pos (Int.natCast_nonneg k), Int.toNat_natCast]

/-- A whole number below the unit of its parts is rounded to itself. -/
theorem round_of_fraction (negative : Bool) (m k : Nat) :
    Dyadic.round ⟨negative, m * bit (k + 1), -(k + 1 : Nat)⟩ = if negative then -(m : Int) else m := by
  have hpos := bit_pos (k + 1)
  have hhalf : (2 * (m * bit (k + 1)) + bit (k + 1)) / (2 * bit (k + 1)) = m := by
    have hsum : 2 * (m * bit (k + 1)) + bit (k + 1) = bit (k + 1) + 2 * bit (k + 1) * m := by ring
    rw [hsum, Nat.add_mul_div_left _ _ (by omega), Nat.div_eq_of_lt (by omega), Nat.zero_add]
  have hbelow : ¬(0 : Int) ≤ -((k + 1 : Nat) : Int) := by omega
  rw [Dyadic.round]
  dsimp only
  rw [if_neg hbelow, Int.neg_neg, Int.toNat_natCast, hhalf]

/-- The nearest double to a whole number rounds to the number that it stands for. -/
theorem round?_nearest (negative : Bool) (hlog : n.log2 ≤ 1022) :
    round? (nearest ⟨negative, n, 0⟩) = some (if negative then -(nearestWhole n : Int) else nearestWhole n) := by
  by_cases hn : n = 0
  · subst hn
    cases negative <;> decide +kernel
  obtain ⟨hlow, hhigh⟩ := keptBits_bounds hn
  rw [round?, parts?_nearest negative hn hlog, Option.map_some]
  by_cases hshort : n.log2 < 52
  · obtain ⟨k, hk⟩ : ∃ k, 52 - n.log2 = k + 1 := ⟨52 - n.log2 - 1, by omega⟩
    have hexponent : (n.log2 : Int) - 52 = -(k + 1 : Nat) := by omega
    have hkept : keptBits n = n * bit (k + 1) := by rw [keptBits, if_pos (Nat.le_of_lt hshort), hk]
    have hfull : n * bit (k + 1) < bit 53 := by
      have h53 : bit 53 = bit (n.log2 + 1) * bit (k + 1) := bit_of_eq_add (by omega)
      rw [h53]
      exact Nat.mul_lt_mul_of_pos_right (lt_bit_log2 n) (bit_pos _)
    rw [hkept, if_pos hfull, hexponent, round_of_fraction, nearestWhole_of_short (Nat.le_of_lt hshort)]
  · obtain ⟨k, hk⟩ := Nat.exists_eq_add_of_le (Nat.not_lt.mp hshort)
    have hwhole := keptBits_mul_bit (Nat.not_lt.mp hshort)
    rw [hk, Nat.add_sub_cancel_left] at hwhole
    have hexponent : (n.log2 : Int) - 52 = k := by omega
    have hcarried : (n.log2 : Int) - 51 = (k + 1 : Nat) := by omega
    rw [hexponent, hcarried]
    split
    · rw [round_of_exponent, hwhole]
    · -- A carry doubles the unit, and the mantissa is then the least one of its length.
      have hcarry : bit 52 * bit (k + 1) = keptBits n * bit k := by
        have hkept : keptBits n = bit 53 := by omega
        rw [hkept, ← bit_add]
        exact bit_of_eq_add (by omega)
      rw [round_of_exponent, hcarry, hwhole]

theorem round?_ofInt {i : Int} (hlog : i.natAbs.log2 ≤ 1022) :
    round? (ofInt i) = some (i.sign * nearestWhole i.natAbs) := by
  rw [ofInt, round?_nearest _ hlog]
  rcases lt_trichotomy i 0 with hneg | rfl | hpos
  · rw [Int.sign_eq_neg_one_of_neg hneg, decide_eq_true hneg, if_pos rfl, Int.neg_one_mul]
  · decide +kernel
  · have hnot : ¬i < 0 := by omega
    rw [Int.sign_eq_one_of_pos hpos, decide_eq_false hnot, if_neg Bool.false_ne_true, Int.one_mul]

theorem log2_of_le_bit (hn : n ≤ bit 64) : n.log2 ≤ 1022 :=
  Nat.le_trans (log2_le_of_lt_bit (Nat.lt_of_le_of_lt hn (by decide : bit 64 < bit 65))) (by decide)

/-- Whole numbers of 64 bits have finite doubles. -/
theorem isFinite_ofInt {i : Int} (hi : i.natAbs ≤ bit 64) : (ofInt i).isFinite = true := by
  obtain ⟨d, hd, -⟩ := Option.map_eq_some_iff.mp (round?_ofInt (log2_of_le_bit hi))
  rw [isFinite_eq, hd, Option.isSome_some]

end

end Double
end SignalBridge
