import SignalBridge.Proofs.FiniteReading
import SignalBridge.Proofs.NearestDouble

/-! Numbers of JSON texts that are read as their nearest doubles. The digits of a number are taken as a whole number,
    which is scaled by a power of ten. There is one rounding in all if the digits fit 64 bits and need no scaling, or if
    they fit 53 bits and the power of ten is a double itself. Other numbers may be read as a neighbour. -/

namespace SignalBridge.Json
open Double

/-! ### Digits -/

section
variable {n : ℕ} {digits : List Char}

theorem le_foldl_digits (n : ℕ) (digits : List Char) :
    n ≤ digits.foldl (fun n c => 10 * n + Text.digitValue c) n := by
  induction digits generalizing n with
  | nil => exact Nat.le_refl n
  | cons c digits ih => exact Nat.le_trans (by omega) (ih (10 * n + Text.digitValue c))

/-- Digits are appended as long as the number fits 64 bits, so all of them are if the whole number does. -/
theorem takeDigits_eq (h : digits.foldl (fun n c => 10 * n + Text.digitValue c) n < bit 64) :
    takeDigits n digits = (digits.foldl (fun n c => 10 * n + Text.digitValue c) n, []) := by
  induction digits generalizing n with
  | nil => rfl
  | cons c digits ih =>
    have hlonger : 10 * n + Text.digitValue c < bit 64 := Nat.lt_of_le_of_lt (le_foldl_digits _ digits) h
    rw [takeDigits, if_pos hlonger]
    exact ih h

end

/-! ### Scaling -/

section
variable {x : Float} {d : Dyadic} {q : ℚ} {n places : ℕ}

theorem exists_parts?_ofNat (hn : n ≠ 0) (hsmall : n < bit 53) :
    ∃ d, parts? (ofInt n) = some d ∧ bit 52 ≤ d.mantissa ∧ -52 ≤ d.exponent ∧ d.exponent ≤ 0 ∧ d.value = n := by
  have hlog : n.log2 ≤ 52 := log2_le_of_lt_bit hsmall
  have hdvd : bit (n.log2 - 52) ∣ n := by
    rw [Nat.sub_eq_zero_of_le hlog]
    exact one_dvd n
  obtain ⟨d, hd, hfull, hexponent, hvalue⟩ := exists_parts?_of_dvd hn (by omega) hdvd
  rw [ofInt_natCast]
  refine ⟨d, hd, hfull, by omega, by omega, hvalue.trans ?_⟩
  rw [Dyadic.signFactor_false, Int.cast_one, one_mul]

/-- The powers of ten up to the 22nd are doubles: without the factors of two, 53 bits are enough for them. -/
theorem exists_parts?_powerOfTen_eq (hplaces : places ≤ 22) :
    ∃ d, parts? (powerOfTen places) = some d ∧ bit 52 ≤ d.mantissa ∧ -52 ≤ d.exponent ∧ d.exponent ≤ 22 ∧
      d.value = 10 ^ places := by
  have hbits : ∀ places ≤ 22, Nat.pow 10 places ≠ 0 ∧ (Nat.pow 10 places).log2 ≤ 74 ∧
      bit ((Nat.pow 10 places).log2 - 52) ∣ Nat.pow 10 places := by
    decide +kernel
  obtain ⟨hn, hlog, hdvd⟩ := hbits places hplaces
  obtain ⟨d, hd, hfull, hexponent, hvalue⟩ := exists_parts?_of_dvd hn (by omega) hdvd
  rw [powerOfTen_eq (Nat.le_trans hplaces (by decide))]
  refine ⟨d, hd, hfull, by omega, by omega, hvalue.trans ?_⟩
  rw [Dyadic.signFactor_false, Int.cast_one, one_mul]
  exact Nat.cast_pow 10 places

theorem isNearest_ofNat (hlog : n.log2 ≤ 1022) : IsNearest n (ofInt n) := by
  have h := isNearest_ofInt (i := n) hlog
  rwa [Int.cast_natCast] at h

/-- Zero stays what it is. -/
theorem isNearest_scale?_zero {power : ℤ} (hpower : power.natAbs ≤ 22) :
    ∃ x, scale? (ofInt 0) power = some x ∧ IsNearest 0 x := by
  have hparts : ∀ places : ℕ, places ≤ 22 → (scale? (ofInt 0) places).bind parts? = some ⟨false, 0, -1074⟩ ∧
      (scale? (ofInt 0) (-places)).bind parts? = some ⟨false, 0, -1074⟩ := by
    decide +kernel
  have hzero : (scale? (ofInt 0) power).bind parts? = some ⟨false, 0, -1074⟩ := by
    obtain ⟨hpositive, hnegative⟩ := hparts _ hpower
    rcases Int.natAbs_eq power with heq | heq
    · rw [heq]
      exact hpositive
    · rw [heq]
      exact hnegative
  obtain ⟨x, hx, hd⟩ := Option.bind_eq_some_iff.mp hzero
  exact ⟨x, hx, isNearest_of_value hd (by simp [Dyadic.value])⟩

theorem scale?_zero (hx : x.isFinite = true) : scale? x 0 = some x := by
  have hone : x * powerOfTen 0 = x := mul_of_beq_one hx (by decide +kernel)
  rw [scale?, if_neg (by decide), if_pos (by decide)]
  dsimp only
  rw [Int.toNat_zero, hone, if_pos hx]

theorem scale?_of_nonneg (hplaces : places ≤ maxPower) (hfinite : (x * powerOfTen places).isFinite = true) :
    scale? x places = some (x * powerOfTen places) := by
  rw [scale?, if_neg (by omega), if_pos (by exact_mod_cast hplaces)]
  exact if_pos hfinite

theorem scale?_of_neg (hpos : 1 ≤ places) (hplaces : places ≤ maxPower) :
    scale? x (-places) = some (x / powerOfTen places) := by
  have hsteps : (places - 1) / maxPower = 0 := Nat.div_eq_of_lt (by omega)
  rw [scale?, if_pos (by omega)]
  dsimp only
  rw [Int.natAbs_neg, Int.natAbs_natCast, hsteps, Nat.zero_mul, Nat.sub_zero]
  rfl

end

namespace Literal
variable {l : Literal}

/-! ### Numbers -/

/-- The digits of a number, without its point. -/
def digits (l : Literal) : ℕ :=
  Text.wholeOf (l.whole ++ l.fraction.getD [])

/-- The power of ten that the digits are scaled by. -/
def power (l : Literal) : ℤ :=
  l.exponent.getD 0 - (l.fraction.getD []).length

/-- The number that a literal denotes. -/
def value (l : Literal) : ℚ :=
  Dyadic.signFactor l.negative * (l.digits * 10 ^ l.power)

/-- The number is rounded once when it is read. -/
def Exact (l : Literal) : Prop :=
  (l.digits < bit 64 ∧ l.power = 0) ∨ (l.digits < bit 53 ∧ l.power.natAbs ≤ 22)

instance : Decidable l.Exact :=
  inferInstanceAs (Decidable (_ ∨ _))

theorem Exact.digits_lt (h : l.Exact) : l.digits < bit 64 := by
  rcases h with ⟨h, -⟩ | ⟨h, -⟩
  · exact h
  · exact Nat.lt_trans h (by decide)

theorem leading_eq (h : l.digits < bit 64) : l.leading = (l.digits, l.power) := by
  have hfold : l.digits = (l.fraction.getD []).foldl (fun n c => 10 * n + Text.digitValue c) (Text.wholeOf l.whole) :=
    List.foldl_append
  rw [hfold] at h
  have hwhole : takeDigits 0 l.whole = (Text.wholeOf l.whole, []) :=
    takeDigits_eq (Nat.lt_of_le_of_lt (le_foldl_digits _ _) h)
  rw [leading, hwhole]
  dsimp only
  rw [takeDigits_eq h, ← hfold, power]
  simp

/-- The digits, scaled by the power of ten, are read as their nearest double. -/
theorem isNearest_scale? (h : l.Exact) :
    ∃ x, scale? (ofInt l.digits) l.power = some x ∧ IsNearest (l.digits * 10 ^ l.power) x := by
  have hdigits := h.digits_lt
  by_cases hpower : l.power = 0
  · rw [hpower, zpow_zero, mul_one]
    have hnearest := isNearest_ofNat (log2_of_le_bit (Nat.le_of_lt hdigits))
    exact ⟨_, scale?_zero hnearest.isFinite, hnearest⟩
  obtain ⟨hdigits, hplaces⟩ := h.resolve_left fun h => hpower h.2
  by_cases hzero : l.digits = 0
  · simp only [hzero, Nat.cast_zero, zero_mul]
    exact isNearest_scale?_zero hplaces
  obtain ⟨a, ha, hfull, hleast, hmost, hvalue⟩ := exists_parts?_ofNat hzero hdigits
  obtain ⟨b, hb, hfull', hleast', hmost', hvalue'⟩ := exists_parts?_powerOfTen_eq hplaces
  rcases Int.natAbs_eq l.power with heq | heq
  · have hnearest := isNearest_mul ha hb hfull hfull' (by omega) (by omega)
    have hscale := scale?_of_nonneg (Nat.le_trans hplaces (by decide)) hnearest.isFinite
    rw [← heq] at hscale
    rw [hvalue, hvalue', ← zpow_natCast, ← heq] at hnearest
    exact ⟨_, hscale, hnearest⟩
  · have hnearest := isNearest_div ha hb hfull hfull' (by omega) (by omega)
    have hpos : 1 ≤ l.power.natAbs := Int.natAbs_pos.mpr hpower
    have hscale := scale?_of_neg (x := ofInt l.digits) hpos (Nat.le_trans hplaces (by decide))
    rw [← heq] at hscale
    rw [hvalue, hvalue', div_eq_mul_inv, ← zpow_natCast, ← zpow_neg, ← heq] at hnearest
    exact ⟨_, hscale, hnearest⟩

theorem isNearest_double? (h : l.Exact) : ∃ x, l.double? = some x ∧ IsNearest l.value x := by
  obtain ⟨x, hx, hnearest⟩ := isNearest_scale? h
  rw [double?, leading_eq h.digits_lt]
  dsimp only
  rw [hx, Option.map_some, value]
  cases l.negative with
  | true =>
    refine ⟨-x, rfl, ?_⟩
    rw [Dyadic.signFactor_true, Int.cast_neg, Int.cast_one, neg_one_mul]
    exact hnearest.neg
  | false =>
    refine ⟨x, rfl, ?_⟩
    rw [Dyadic.signFactor_false, Int.cast_one, one_mul]
    exact hnearest

end Literal
end SignalBridge.Json
