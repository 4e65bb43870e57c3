import SignalBridge.Proofs.DeclaredLayout
import SignalBridge.Proofs.DoubleQuotient
import SignalBridge.Proofs.Packing

/-! Which integers an unscaled signal is given, and as which number it is read again. An integer is first made the
    nearest double, and the greatest number of the signal is a double as well. Up to 53 bits both are exact: the
    integers of the signal's range are accepted and kept, and no others. Beyond them an integer may be replaced by a
    neighbour, and the first number above the range is accepted as well, but as another one. -/

namespace SignalBridge

/-! ### Nearest whole numbers -/

namespace Double
variable {n : Nat}

/-- The integer that the nearest double to `i` stands for. -/
def nearestInt (i : Int) : Int :=
  i.sign * nearestWhole i.natAbs

theorem shiftToNearest_near (n k : Nat) :
    2 * (shiftToNearest n k * bit k) ≤ 2 * n + bit k ∧ 2 * n ≤ 2 * (shiftToNearest n k * bit k) + bit k := by
  have hdivide := Nat.div_add_mod n (bit k)
  have hmod := Nat.mod_lt n (bit_pos k)
  unfold shiftToNearest
  dsimp only
  split
  case isTrue h =>
    have hle : 2 * (n % bit k) ≤ bit k := by
      rcases (Bool.or_eq_true _ _).mp h with h | h
      · exact Nat.le_of_lt (of_decide_eq_true h)
      · exact Nat.le_of_eq (beq_iff_eq.mp (Bool.and_eq_true_iff.mp h).1)
    rw [Nat.mul_comm (n / bit k)]
    omega
  case isFalse h =>
    have hge : bit k ≤ 2 * (n % bit k) := by
      by_contra hlt
      exact h (Bool.or_eq_true_iff.mpr (.inl (decide_eq_true (Nat.not_le.mp hlt))))
    rw [Nat.add_mul, Nat.one_mul, Nat.mul_comm (n / bit k)]
    omega

theorem le_nearestWhole (hn : bit 53 ≤ n) : bit 53 ≤ nearestWhole n := by
  have hne : n ≠ 0 := Nat.ne_of_gt (Nat.lt_of_lt_of_le (bit_pos 53) hn)
  have hlog := le_log2_of_bit_le hn
  obtain ⟨k, hk⟩ := Nat.exists_eq_add_of_le hlog
  have hunit : n.log2 - 52 = k + 1 := by omega
  have hpos := bit_pos k
  rw [← keptBits_mul_bit (by omega), hunit]
  calc bit 53 = bit 52 * bit 1 := rfl
    _ ≤ keptBits n * bit (k + 1) := by
      refine Nat.mul_le_mul (keptBits_bounds hne).1 ?_
      rw [Nat.add_comm, bit_add]
      exact Nat.le_mul_of_pos_right _ hpos

theorem nearestWhole_of_le (hn : n ≤ bit 53) : nearestWhole n = n := by
  rcases Nat.lt_or_eq_of_le hn with hlt | rfl
  · exact nearestWhole_of_short (log2_le_of_lt_bit hlt)
  · decide +kernel

/-- Beyond 53 bits the number below a power of two is rounded up to it. -/
theorem nearestWhole_bit_sub_one (hn : 53 < n) : nearestWhole (bit n - 1) = bit n := by
  obtain ⟨k, rfl⟩ := Nat.exists_eq_add_of_le' (Nat.le_of_lt hn)
  have hpos := bit_pos k
  have hunit : 2 * bit (k - 1) = bit k := by
    rw [show (2 : Nat) = bit 1 from rfl, ← bit_add]
    congr 1
    omega
  have hsplit : bit (k + 53) - 1 = bit k - 1 + bit k * (bit 53 - 1) := by
    rw [bit_add, Nat.mul_sub_one]
    have hle : bit k * 1 ≤ bit k * bit 53 := Nat.mul_le_mul_left _ (bit_pos 53)
    omega
  have hlog : (bit (k + 53) - 1).log2 - 52 = k := by
    have hlow : k + 52 ≤ (bit (k + 53) - 1).log2 := by
      refine le_log2_of_bit_le (Nat.le_sub_one_of_lt (bit_lt_bit ?_))
      omega
    have hhigh : (bit (k + 53) - 1).log2 ≤ k + 52 := log2_le_of_lt_bit (Nat.sub_one_lt (bit_pos _).ne')
    omega
  have hquotient : (bit (k + 53) - 1) / bit k = bit 53 - 1 := by
    rw [hsplit, Nat.add_mul_div_left _ _ hpos, Nat.div_eq_of_lt (Nat.sub_one_lt hpos.ne'), Nat.zero_add]
  have hrest : (bit (k + 53) - 1) % bit k = bit k - 1 := by
    rw [hsplit, Nat.add_mul_mod_self_left, Nat.mod_eq_of_lt (Nat.sub_one_lt hpos.ne')]
  -- What is left is half a unit at least, and the quotient is odd.
  have hup : ¬(2 * (bit k - 1) < bit k || 2 * (bit k - 1) == bit k && (bit 53 - 1) % 2 == 0) := by
    have hodd : ((bit 53 - 1) % 2 == 0) = false := by decide
    have hone := bit_pos (k - 1)
    rw [hodd, Bool.and_false, Bool.or_false, decide_eq_true_eq]
    omega
  rw [nearestWhole, hlog, shiftToNearest, hquotient, hrest, if_neg hup, bit_add, Nat.sub_add_cancel (bit_pos 53), Nat.mul_comm]

theorem nearestInt_of_le {i : Int} (hi : i.natAbs ≤ bit 53) : nearestInt i = i := by
  rw [nearestInt, nearestWhole_of_le hi, Int.sign_mul_natAbs]

theorem le_natAbs_nearestInt {i : Int} (hi : bit 53 ≤ i.natAbs) :
    (0 < i ∧ (bit 53 : Int) ≤ nearestInt i) ∨ (i < 0 ∧ nearestInt i ≤ -(bit 53 : Int)) := by
  have hpos := bit_pos 53
  have hle : (bit 53 : Int) ≤ nearestWhole i.natAbs := by exact_mod_cast le_nearestWhole hi
  rcases lt_trichotomy i 0 with hneg | rfl | hpositive
  · refine .inr ⟨hneg, ?_⟩
    rw [nearestInt, Int.sign_eq_neg_one_of_neg hneg]
    omega
  · omega
  · refine .inl ⟨hpositive, ?_⟩
    rw [nearestInt, Int.sign_eq_one_of_pos hpositive]
    omega

/-- An integer differs from the double nearest to it by half a unit of the last one of its 53 bits at most. -/
theorem nearestInt_near (i : Int) : 2 * (nearestInt i - i).natAbs ≤ bit (i.natAbs.log2 - 52) := by
  obtain ⟨hbelow, habove⟩ := shiftToNearest_near i.natAbs (i.natAbs.log2 - 52)
  rw [nearestInt, nearestWhole]
  generalize shiftToNearest i.natAbs (i.natAbs.log2 - 52) * bit (i.natAbs.log2 - 52) = r at hbelow habove ⊢
  rcases lt_trichotomy i 0 with hneg | rfl | hpositive
  · rw [Int.sign_eq_neg_one_of_neg hneg]
    omega
  · rw [Int.sign_zero]
    omega
  · rw [Int.sign_eq_one_of_pos hpositive]
    omega

section
variable {i : Int}

theorem unpack_ofInt_ne (hi : i.natAbs ≤ bit 64) : (ofInt i).toModel.unpack ≠ .zero .negative := by
  intro hu
  have hparts : parts? (ofInt i) = some ⟨true, 0, -1074⟩ := by
    rw [parts?_eq, hu]
    rfl
  by_cases hzero : i = 0
  · subst hzero
    revert hparts
    decide +kernel
  · have hne : i.natAbs ≠ 0 := by omega
    have hkept := (keptBits_bounds hne).1
    have hpos := bit_pos 52
    rw [ofInt, parts?_nearest _ hne (log2_of_le_bit hi)] at hparts
    split at hparts
    · have hmantissa := congrArg Dyadic.mantissa (Option.some.inj hparts)
      dsimp only at hmantissa
      omega
    · have hmantissa := congrArg Dyadic.mantissa (Option.some.inj hparts)
      exact absurd hmantissa (show bit 52 ≠ 0 by decide)

/-- Scaling by one without an offset changes no integer. -/
theorem unscaled_ofInt {factor offset : Float} (hi : i.natAbs ≤ bit 64) (hfactor : (factor == 1.0) = true)
    (hoffset : (offset == 0.0) = true) : (ofInt i - offset) / factor = ofInt i := by
  have hfinite := isFinite_ofInt hi
  rw [sub_of_beq_zero hfinite (unpack_ofInt_ne hi) hoffset, div_of_beq_one hfinite hfactor]

end
end Double

/-! ### Signals -/

namespace Signal
variable {s : Signal} {v : Int64} {raw : Nat} {i : Int}

/-- How many bits are left for the size of a signal's numbers. -/
def width (s : Signal) : Nat :=
  if s.signed then s.length - 1 else s.length

/-- The least number of a signal. -/
def lowest (s : Signal) : Int :=
  if s.signed then -(bit s.width : Int) else 0

/-- The first number above those of a signal. -/
def beyond (s : Signal) : Int :=
  bit s.width

/-- The upper bound of a range is the double nearest to the greatest number of the signal. -/
theorem greatestBelow_eq (n : Nat) : greatestBelow n = Double.nearestInt ((bit n : Int) - 1) := by
  have hpos := bit_pos n
  unfold greatestBelow
  split
  case isTrue hn =>
    have hle : bit n ≤ bit 53 := bit_le_bit hn
    exact (Double.nearestInt_of_le (by omega)).symm
  case isFalse hn =>
    have hone : bit 1 ≤ bit n := bit_le_bit (by omega)
    have htwo : bit 1 = 2 := rfl
    have habs : ((bit n : Int) - 1).natAbs = bit n - 1 := by omega
    rw [Double.nearestInt, Int.sign_eq_one_of_pos (by omega), Int.one_mul, habs,
      Double.nearestWhole_bit_sub_one (Nat.not_le.mp hn)]

theorem le_greatestBelow {n : Nat} : i ≤ greatestBelow n ↔ i < bit n ∨ i = bit n ∧ 53 < n := by
  unfold greatestBelow
  split <;> omega

theorem range_eq : s.range = (s.lowest, greatestBelow s.width) := by
  unfold range lowest width
  cases s.signed <;> rfl

theorem width_le {n : Nat} (h : s.length ≤ n) : s.width ≤ if s.signed then n - 1 else n := by
  unfold width
  split <;> omega

/-- An unscaled signal takes the integer that the nearest double stands for, if it is in the range. -/
theorem toRaw_unscaled (hfactor : (s.factor == 1.0) = true) (hoffset : (s.offset == 0.0) = true) :
    s.toRaw (.integer v) =
      if s.lowest ≤ Double.nearestInt v.toInt ∧ (Double.nearestInt v.toInt < s.beyond ∨
        Double.nearestInt v.toInt = s.beyond ∧ 53 < s.width)
      then .ok (clamp s.signed (Double.nearestInt v.toInt) % bit s.length).toNat
      else .error (.outOfRange s.name (.integer v) s.length) := by
  have hv : v.toInt.natAbs ≤ bit 64 := by
    have hlow := v.le_toInt
    have hhigh := v.toInt_lt
    have hbit : bit 64 = 2 ^ 64 := by decide
    omega
  rw [toRaw, Scalar.toDouble?]
  dsimp only
  rw [Double.unscaled_ofInt hv hfactor hoffset, Double.round?_ofInt (Double.log2_of_le_bit hv), range_eq]
  exact if_congr (and_congr_right fun _ => le_greatestBelow) rfl rfl

/-- Only the first number above a range of 64 bits is clamped. -/
theorem clamp_of_range (hfits : s.length ≤ 64) (hlow : s.lowest ≤ i)
    (hhigh : i < s.beyond ∨ i = s.beyond ∧ s.length < 64) : clamp s.signed i = i := by
  have hmost : i < bit (if s.signed then 63 else 64) := by
    rcases hhigh with hhigh | ⟨rfl, hshort⟩
    · exact Int.lt_of_lt_of_le hhigh (Int.ofNat_le.mpr (bit_le_bit (width_le hfits)))
    · have hlimit : s.width < if s.signed then 63 else 64 := by
        unfold width
        split <;> omega
      exact Int.ofNat_lt.mpr (bit_lt_bit hlimit)
  have hleast : bit s.width ≤ bit (if s.signed then 63 else 64) := bit_le_bit (width_le hfits)
  unfold lowest at hlow
  unfold clamp
  cases hsigned : s.signed with
  | true =>
    rw [hsigned, if_pos rfl] at hlow hmost hleast
    rw [if_pos rfl]
    omega
  | false =>
    rw [hsigned, if_neg Bool.false_ne_true] at hlow hmost
    rw [if_neg Bool.false_ne_true]
    omega

/-- Bits denote the number that they were taken from, but the first number above the range wraps around. -/
theorem numberOf_emod (hlength : 1 ≤ s.length) (hlow : s.lowest ≤ i) (hhigh : i ≤ s.beyond) :
    s.numberOf (i % bit s.length).toNat = if i < s.beyond then i else s.lowest := by
  have hpos := bit_pos s.width
  rw [numberOf]
  unfold lowest beyond at *
  cases hsigned : s.signed with
  | true =>
    have hwidth : s.length - 1 = s.width := by rw [width, hsigned, if_pos rfl]
    have hdouble : bit s.length = 2 * bit s.width := by
      rw [← hwidth, show (2 : Nat) = bit 1 from rfl, ← bit_add, Nat.add_sub_of_le hlength]
    rw [hsigned, if_pos rfl] at hlow
    rw [hwidth, hdouble, if_pos rfl, Bool.true_and]
    by_cases hneg : i < 0
    · have hmod : i % (2 * bit s.width : Nat) = i + (2 * bit s.width : Nat) := by
        rw [← Int.add_emod_right]
        exact Int.emod_eq_of_lt (by omega) (by omega)
      have hhalf : bit s.width ≤ (i + (2 * bit s.width : Nat)).toNat := by omega
      have hbelow : i < bit s.width := by omega
      rw [hmod, if_pos (decide_eq_true hhalf), if_pos hbelow]
      omega
    · have hmod : i % (2 * bit s.width : Nat) = i := Int.emod_eq_of_lt (by omega) (by omega)
      have hhalf : bit s.width ≤ i.toNat ↔ ¬i < bit s.width := by omega
      simp only [hmod, decide_eq_true_eq, hhalf, ite_not]
      split <;> omega
  | false =>
    have hwidth : s.length = s.width := by rw [width, hsigned, if_neg Bool.false_ne_true]
    rw [hsigned, if_neg Bool.false_ne_true] at hlow
    rw [hwidth, if_neg Bool.false_ne_true, Bool.false_and, if_neg Bool.false_ne_true]
    split
    case isTrue hbelow =>
      rw [Int.emod_eq_of_lt hlow hbelow]
      omega
    case isFalse habove =>
      obtain rfl : i = bit s.width := by omega
      rw [Int.emod_self]
      rfl

/-- The bits of a number in the range denote it. -/
theorem numberOf_clamp (hlength : 1 ≤ s.length ∧ s.length ≤ 64) (hlow : s.lowest ≤ i) (hhigh : i < s.beyond) :
    s.numberOf (clamp s.signed i % bit s.length).toNat = i := by
  rw [clamp_of_range hlength.2 hlow (.inl hhigh), numberOf_emod hlength.1 hlow (Int.le_of_lt hhigh), if_pos hhigh]

theorem lowest_lt_beyond : s.lowest < s.beyond := by
  have hpos := bit_pos s.width
  unfold lowest beyond
  split <;> omega

/-- The first number above the range wraps around, unless it is clamped to 64 bits. -/
theorem numberOf_clamp_beyond (hlength : 1 ≤ s.length ∧ s.length ≤ 64) :
    s.numberOf (clamp s.signed s.beyond % bit s.length).toNat =
      if s.length = 64 then s.beyond - 1 else s.lowest := by
  have hbelow : s.lowest ≤ s.beyond - 1 := Int.le_sub_one_of_lt lowest_lt_beyond
  split
  case isTrue hfull =>
    have hclamp : clamp s.signed s.beyond = clamp s.signed (s.beyond - 1) := by
      unfold clamp beyond width
      rw [hfull]
      cases s.signed <;> decide
    rw [hclamp, numberOf_clamp hlength hbelow (by omega)]
  case isFalse hshort =>
    have hlow := Int.le_of_lt (lowest_lt_beyond (s := s))
    have hclamp := clamp_of_range hlength.2 hlow (.inr ⟨rfl, by omega⟩)
    rw [hclamp, numberOf_emod hlength.1 hlow (Int.le_refl _), if_neg (Int.lt_irrefl _)]

/-- Up to 53 bits of the signal or of the integer, the nearest double is in the range only if the integer is, and is
    the integer then. -/
theorem nearestInt_of_exact (hexact : s.length ≤ 53 ∨ i.natAbs ≤ bit 53) :
    (s.lowest ≤ Double.nearestInt i ∧ (Double.nearestInt i < s.beyond ∨ Double.nearestInt i = s.beyond ∧ 53 < s.width)
      ↔ s.lowest ≤ i ∧ i < s.beyond) ∧ (s.lowest ≤ i → i < s.beyond → Double.nearestInt i = i) := by
  by_cases hsmall : i.natAbs ≤ bit 53
  · rw [Double.nearestInt_of_le hsmall]
    refine ⟨and_congr_right fun _ => or_iff_left ?_, fun _ _ => rfl⟩
    rintro ⟨rfl, hwide⟩
    have hlt : bit 53 < bit 54 := by decide
    have hle : bit 54 ≤ bit s.width := bit_le_bit hwide
    unfold beyond at hsmall
    omega
  · have hshort : s.length ≤ 53 := hexact.resolve_right hsmall
    have hwidth := width_le hshort
    have hmost : s.width ≤ 53 := Nat.le_trans hwidth (by split <;> decide)
    have hbeyond : s.beyond ≤ bit 53 := Int.ofNat_le.mpr (bit_le_bit hmost)
    have hlowest : -(bit 53 : Int) < s.lowest := by
      unfold lowest
      split
      next hsigned =>
        rw [if_pos hsigned] at hwidth
        have hlt : bit s.width < bit 53 := bit_lt_bit (Nat.lt_succ_of_le hwidth)
        omega
      next =>
        have hpos := bit_pos 53
        omega
    rcases Double.le_natAbs_nearestInt (Nat.le_of_lt (Nat.not_le.mp hsmall)) with ⟨hpos, hge⟩ | ⟨hneg, hle⟩
    · exact ⟨⟨fun h => by omega, fun h => by omega⟩, fun _ _ => by omega⟩
    · exact ⟨⟨fun h => by omega, fun h => by omega⟩, fun _ _ => by omega⟩

/-- Integers against an unscaled signal. Up to 53 bits of the signal or of the integer, exactly the integers of the
    range are accepted, and they are read again as themselves. In any case it is the nearest double that counts, which
    is half a unit away at most. It is compared with the least number and with the double nearest to the greatest one, so
    it is accepted in the range, and beyond 53 bits also just above it. It is read again as itself or, just above the
    range, as the least number, or as the greatest one if the signal has 64 bits. -/
theorem toRaw_integer (hlength : 1 ≤ s.length ∧ s.length ≤ 64) (hfactor : (s.factor == 1.0) = true)
    (hoffset : (s.offset == 0.0) = true) (v : Int64) :
    (s.length ≤ 53 ∨ v.toInt.natAbs ≤ bit 53 →
      ((∃ raw, s.toRaw (.integer v) = .ok raw) ↔ s.lowest ≤ v.toInt ∧ v.toInt < s.beyond) ∧
        ∀ raw, s.toRaw (.integer v) = .ok raw → s.numberOf raw = v.toInt) ∧
    (2 * (Double.nearestInt v.toInt - v.toInt).natAbs ≤ bit (v.toInt.natAbs.log2 - 52)) ∧
    s.range = (s.lowest, Double.nearestInt (s.beyond - 1)) ∧
    ((∃ raw, s.toRaw (.integer v) = .ok raw) ↔ s.lowest ≤ Double.nearestInt v.toInt ∧
      (Double.nearestInt v.toInt < s.beyond ∨ Double.nearestInt v.toInt = s.beyond ∧ 53 < s.width)) ∧
    (∀ raw, s.toRaw (.integer v) = .ok raw → raw < bit s.length ∧ s.numberOf raw =
      if Double.nearestInt v.toInt < s.beyond then Double.nearestInt v.toInt
      else if s.length = 64 then s.beyond - 1 else s.lowest) ∧
    (∀ f, s.toRaw (.integer v) = .error f → f = .outOfRange s.name (.integer v) s.length) := by
  have hraw := toRaw_unscaled hfactor hoffset (v := v)
  have haccepted : (∃ raw, s.toRaw (.integer v) = .ok raw) ↔ s.lowest ≤ Double.nearestInt v.toInt ∧
      (Double.nearestInt v.toInt < s.beyond ∨ Double.nearestInt v.toInt = s.beyond ∧ 53 < s.width) := by
    rw [hraw]
    split
    case isTrue h => exact ⟨fun _ => h, fun _ => ⟨_, rfl⟩⟩
    case isFalse h => exact ⟨nofun, fun h' => absurd h' h⟩
  have hread : ∀ raw, s.toRaw (.integer v) = .ok raw → raw < bit s.length ∧ s.numberOf raw =
      if Double.nearestInt v.toInt < s.beyond then Double.nearestInt v.toInt
      else if s.length = 64 then s.beyond - 1 else s.lowest := by
    intro raw h
    refine ⟨lt_of_toRaw h, ?_⟩
    obtain ⟨hlow, hhigh⟩ := haccepted.mp ⟨raw, h⟩
    rw [hraw, if_pos ⟨hlow, hhigh⟩] at h
    obtain rfl := Except.ok.inj h
    rcases hhigh with hbelow | ⟨hequal, -⟩
    · rw [if_pos hbelow, numberOf_clamp hlength hlow hbelow]
    · rw [hequal, if_neg (Int.lt_irrefl _), numberOf_clamp_beyond hlength]
  have hrange : s.range = (s.lowest, Double.nearestInt (s.beyond - 1)) := by rw [range_eq, greatestBelow_eq, beyond]
  refine ⟨fun hexact => ?_, Double.nearestInt_near _, hrange, haccepted, hread, fun f h => ?_⟩
  · obtain ⟨hiff, hsame⟩ := nearestInt_of_exact hexact
    refine ⟨haccepted.trans hiff, fun raw h => ?_⟩
    obtain ⟨hlow, hhigh⟩ := hiff.mp (haccepted.mp ⟨raw, h⟩)
    rw [(hread raw h).2, hsame hlow hhigh, if_pos hhigh]
  · rw [hraw] at h
    split at h
    · cases h
    · exact (Except.error.inj h).symm

/-- An unsigned signal of 54 bits. -/
def wideSignal : Signal :=
  { name := "S", start := 0, length := 54, order := .little, signed := false, factor := 1, offset := 0, least := 0
    greatest := 0, unit := none, selector := none }

theorem toRaw_integer_wide : ∃ raw, wideSignal.toRaw (.integer 9007199254740992) = .ok raw ∧
    wideSignal.numberOf raw = 9007199254740992 := by
  obtain ⟨hexact, -⟩ :=
    toRaw_integer (s := wideSignal) (by decide) (by decide +kernel) (by decide +kernel) 9007199254740992
  obtain ⟨haccepted, hread⟩ := hexact (.inr (by decide))
  obtain ⟨raw, hraw⟩ := haccepted.mpr (by decide)
  exact ⟨raw, hraw, hread raw hraw⟩

/-- The first number that needs 55 bits is accepted and becomes zero. -/
theorem wide_range_wraps :
    (Database.empty.load (Message.oneSignalText "0|54@1+")).toOption.bind
      (fun d => (d.message? 5).map (·.signals)) = some [wideSignal] ∧
    (wideSignal.factor == 1.0) = true ∧ (wideSignal.offset == 0.0) = true ∧ wideSignal.beyond = 18014398509481984 ∧
      wideSignal.toRaw (.integer 18014398509481984) = .ok 0 ∧ wideSignal.numberOf 0 = 0 :=
  ⟨by decide +kernel, by decide +kernel, by decide +kernel, by decide, rfl, by decide⟩

end Signal
end SignalBridge
