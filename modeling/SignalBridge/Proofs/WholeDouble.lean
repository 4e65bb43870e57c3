import Mathlib.Data.List.Basic
import Mathlib.Data.List.TakeWhile
import SignalBridge.Expression.Token
import SignalBridge.Proofs.Payload

/-! Whole numbers with a fraction. Rounding to the nearest double depends on the value of a dyadic number only, so
    a word of decimal digits with `.0` after it denotes the double nearest to the number that the digits denote. -/

namespace SignalBridge

namespace Double
variable {m : Nat} {negative : Bool}

/-! ### Rounding depends on the value -/

theorem log2_mul_bit (hm : m ≠ 0) (k : Nat) : (m * bit k).log2 = m.log2 + k := by
  induction k with
  | zero => rw [show bit 0 = 1 from rfl, Nat.mul_one, Nat.add_zero]
  | succ k ih =>
    have hdouble : m * bit (k + 1) = 2 * (m * bit k) := by
      rw [bit_add, show bit 1 = 2 from rfl, ← Nat.mul_assoc, Nat.mul_comm]
    rw [hdouble, Nat.log2_two_mul (Nat.mul_ne_zero hm (Nat.ne_of_gt (bit_pos k))), ih, Nat.add_assoc]

theorem unitExponent_mul_bit (hm : m ≠ 0) (k : Nat) (e : Int) :
    unitExponent (m * bit k) (e - k) = unitExponent m e := by
  have hsum : e - k + ((m.log2 + k : Nat) : Int) = e + m.log2 := by omega
  rw [unitExponent, unitExponent, log2_mul_bit hm, hsum]

theorem shiftToNearest_mul_bit (m k j : Nat) : shiftToNearest (m * bit k) (j + k) = shiftToNearest m j := by
  have hk := bit_pos k
  have hlt : 2 * (m % bit j * bit k) < bit j * bit k ↔ 2 * (m % bit j) < bit j := by
    rw [← Nat.mul_assoc]
    exact Nat.mul_lt_mul_right hk
  have heq : 2 * (m % bit j * bit k) = bit j * bit k ↔ 2 * (m % bit j) = bit j := by
    rw [← Nat.mul_assoc]
    exact Nat.mul_left_inj (Nat.ne_of_gt hk)
  simp only [shiftToNearest, bit_add, Nat.mul_div_mul_right _ _ hk, Nat.mul_mod_mul_right, hlt, Bool.or_eq_true,
    decide_eq_true_eq, Bool.and_eq_true, beq_iff_eq, heq]

/-- Shifting away zeros only needs no rounding. -/
theorem shiftToNearest_exact (m j : Nat) : shiftToNearest (m * bit j) j = m := by
  have hj := bit_pos j
  simp only [shiftToNearest, Nat.mul_div_cancel _ hj, Nat.mul_mod_left, Nat.mul_zero, hj, decide_true, Bool.true_or, if_true]

/-- The same number with a smaller exponent has the same nearest double. -/
theorem magnitudeBits_mul_bit (m k : Nat) (e : Int) : magnitudeBits (m * bit k) (e - k) = magnitudeBits m e := by
  by_cases hm : m = 0
  · rw [hm, Nat.zero_mul, magnitudeBits, magnitudeBits, if_pos rfl, if_pos rfl]
  · have hmk : m * bit k ≠ 0 := Nat.mul_ne_zero hm (Nat.ne_of_gt (bit_pos k))
    rw [magnitudeBits, magnitudeBits, if_neg hm, if_neg hmk]
    dsimp only
    rw [unitExponent_mul_bit hm]
    congr 2
    generalize unitExponent m e = unit
    by_cases hsmall : unit ≤ e - k
    · -- Neither of the two mantissas loses bits.
      have hle : unit ≤ e := by omega
      have hsplit : (e - unit).toNat = k + (e - k - unit).toNat := by omega
      rw [if_pos hsmall, if_pos hle, hsplit, bit_add, Nat.mul_assoc]
    · rw [if_neg hsmall]
      by_cases hle : unit ≤ e
      · -- The longer mantissa loses zeros only.
        have hsplit : k = (e - unit).toNat + (unit - (e - k)).toNat := by omega
        have hscaled : m * bit k = m * bit (e - unit).toNat * bit (unit - (e - k)).toNat := by
          rw [Nat.mul_assoc, ← bit_add, ← hsplit]
        rw [if_pos hle, hscaled, shiftToNearest_exact]
      · have hsplit : (unit - (e - k)).toNat = (unit - e).toNat + k := by omega
        rw [if_neg hle, hsplit, shiftToNearest_mul_bit]

/-! ### Decimals -/

/-- A whole number of more than 1025 bits is beyond the largest double. -/
theorem nearest_of_huge (hm : 1025 ≤ m.log2) : nearest ⟨negative, m, 0⟩ = infinity negative := by
  have hne : m ≠ 0 := by
    rintro rfl
    exact absurd hm (by decide)
  have hunit : 2047 ≤ (unitExponent m 0 + 1074).toNat := by
    rw [unitExponent]
    omega
  rw [nearest, infinity, magnitudeBits, if_neg hne]
  exact congrArg _ (Nat.min_eq_left (Nat.le_trans (Nat.mul_le_mul_right _ hunit) (Nat.le_add_right _ _)))

theorem ofDecimal_whole (n : Nat) : ofDecimal negative n 0 = nearest ⟨negative, n, 0⟩ := by
  by_cases hn : n = 0
  · rw [hn, ofDecimal, if_pos rfl, nearest, magnitudeBits, if_pos rfl]
  · rw [ofDecimal, if_neg hn]
    split
    next hsize =>
      exact (nearest_of_huge (by omega)).symm
    · rw [if_neg (by omega), if_pos (by omega)]
      exact congrArg (fun k => nearest ⟨negative, k, 0⟩) (Nat.mul_one n)

/-- A number divided exactly needs no rounding before the last one. -/
theorem ofQuotient_multiple {d : Nat} (hd : 0 < d) (n : Nat) : ofQuotient negative (d * n) d = nearest ⟨negative, n, 0⟩ := by
  rw [ofQuotient]
  generalize d.log2 + 66 - (d * n).log2 = shift
  have hscaled : d * n * bit shift = d * (n * bit shift) := Nat.mul_assoc ..
  have hmantissa : 2 * (n * bit shift) = n * bit (shift + 1) := by
    rw [bit_add, show bit 1 = 2 from rfl, Nat.mul_left_comm, Nat.mul_comm 2]
  have hexponent : -(shift : Int) - 1 = 0 - ((shift + 1 : Nat) : Int) := by omega
  rw [hscaled, Nat.mul_mod_right, if_pos rfl, Nat.mul_div_cancel_left _ hd, Nat.add_zero, hmantissa, hexponent]
  exact congrArg (ofMagnitudeBits negative) (magnitudeBits_mul_bit n (shift + 1) 0)

/-- Ten times a number, one decimal place down, makes the same double as the number. -/
theorem ofDecimal_tenfold (n : Nat) : ofDecimal negative (10 * n) (-1) = nearest ⟨negative, n, 0⟩ := by
  by_cases hn : n = 0
  · rw [hn, ofDecimal, if_pos rfl, nearest, magnitudeBits, if_pos rfl]
  · have hlog : (10 * n).log2 < n.log2 + 5 := by
      have hself : n < Nat.pow 2 (n.log2 + 1) := Nat.lt_log2_self
      have hpow : Nat.pow 2 (n.log2 + 5) = Nat.pow 2 (n.log2 + 1) * 16 := Nat.pow_add 2 (n.log2 + 1) 4
      exact (Nat.log2_lt (by omega)).mpr (show 10 * n < Nat.pow 2 (n.log2 + 5) by omega)
    rw [ofDecimal, if_neg (by omega)]
    split
    next hsize => exact (nearest_of_huge (by omega)).symm
    · rw [if_neg (by omega), if_neg (by decide)]
      exact ofQuotient_multiple (by decide) n

end Double

namespace Text
variable {digits rest : List Char}

theorem wholeOf_append_zero (digits : List Char) : wholeOf (digits ++ ['0']) = 10 * wholeOf digits := by
  rw [wholeOf, List.foldl_append]
  rfl

/-- The double that digits denote, with or without a fraction of zero. -/
theorem doubleOf_zero (digits : List Char) :
    doubleOf false digits [] 0 = Double.ofInt (wholeOf digits) ∧ doubleOf false digits ['0'] 0 = Double.ofInt (wholeOf digits) := by
  have hint : Double.ofInt (wholeOf digits) = Double.nearest ⟨false, wholeOf digits, 0⟩ := by
    have hsign : decide ((wholeOf digits : Int) < 0) = false := decide_eq_false (by omega)
    rw [Double.ofInt, hsign, Int.natAbs_natCast]
  rw [doubleOf, doubleOf, wholeOf_append_zero, List.append_nil, hint]
  exact ⟨Double.ofDecimal_whole _, Double.ofDecimal_tenfold _⟩

theorem toLower_of_isDigit {c : Char} (hc : c.isDigit = true) : c.toLower = c := by
  rw [Char.isDigit, Bool.and_eq_true_iff] at hc
  unfold Char.toLower
  rw [dif_neg]
  rintro ⟨hA, -⟩
  exact absurd (UInt32.le_trans hA (of_decide_eq_true hc.2)) (by decide)

/-- Digits with a fraction or without one, and nothing after them, denote a double. -/
theorem readDouble?_of_digits {fraction : List Char} (hne : digits ≠ []) (hdigits : digits.all Char.isDigit = true)
    (hrest : rest.head?.any Char.isDigit = false) (hfraction : readFraction rest = (fraction, [])) :
    readDouble? (digits ++ rest) = some (doubleOf false digits fraction 0) := by
  obtain ⟨c, s, rfl⟩ := List.exists_cons_of_ne_nil hne
  have hc : c.isDigit = true := (Bool.and_eq_true_iff.mp hdigits).1
  have hcne (d : Char) (hd : d.isDigit = false) : c ≠ d := by
    rintro rfl
    exact absurd hc (by simp [hd])
  have hlower : c.toLower = c := toLower_of_isDigit hc
  have hword {t : List Char} {d : Char} (ht : t.head? = some d) (hd : d.isDigit = false) :
      (c :: s ++ rest).map Char.toLower ≠ t := by
    rintro rfl
    exact hcne d hd (hlower.symm.trans (Option.some.inj ht))
  unfold readDouble?
  split
  next heq => exact absurd (List.cons.inj heq).1 (hcne '-' (by decide))
  next heq => exact absurd (List.cons.inj heq).1 (hcne '+' (by decide))
  · have hinf : (c :: s ++ rest).map Char.toLower ≠ "inf".toList := hword rfl (by decide)
    have hinfinity : (c :: s ++ rest).map Char.toLower ≠ "infinity".toList := hword rfl (by decide)
    have hnan : (c :: s ++ rest).map Char.toLower ≠ "nan".toList := hword rfl (by decide)
    rw [readUnsignedDouble?, if_neg (not_or.mpr ⟨hinf, hinfinity⟩), if_neg hnan, spanDigits_of_digits hdigits hrest]
    dsimp only
    rw [hfraction]
    rfl

end Text

namespace Text
variable {s : List Char} {sign : Char}

/-! ### Signed exponents -/

theorem readFraction_append (s : List Char) :
    ∃ front, s = front ++ (readFraction s).2 ∧ ∀ c ∈ front, c.isDigit = true ∨ c = '.' := by
  unfold readFraction
  split
  next t =>
    refine ⟨'.' :: (spanDigits t).1, by rw [List.cons_append, spanDigits_append], List.forall_mem_cons.mpr ⟨.inr rfl, ?_⟩⟩
    exact fun c hc => .inl (List.mem_takeWhile_imp hc)
  · exact ⟨[], rfl, nofun⟩

/-- After its mark and at most one character more, an exponent consists of digits. -/
theorem exists_of_readExponent? {exponent : Int} (h : readExponent? s = some (exponent, [])) :
    ∃ mark front digits, (mark = 'e' ∨ mark = 'E') ∧ front.length ≤ 1 ∧ digits.all Char.isDigit = true ∧
      s = mark :: (front ++ digits) := by
  have hdigits {e : Int} {t : List Char} (h : (if (spanDigits t).1.isEmpty = true then none
      else some (e, (spanDigits t).2)) = some (exponent, [])) : t.all Char.isDigit = true := by
    split at h
    · cases h
    · have hrest : t.dropWhile Char.isDigit = [] := congrArg Prod.snd (Option.some.inj h)
      exact List.all_eq_true.mpr (List.dropWhile_eq_nil_iff.mp hrest)
  unfold readExponent? at h
  split at h
  next mark t =>
    split at h
    next hmark =>
      dsimp only at h
      split at h
      next t => exact ⟨mark, ['-'], t, hmark, by decide, hdigits h, rfl⟩
      next t => exact ⟨mark, ['+'], t, hmark, by decide, hdigits h, rfl⟩
      · exact ⟨mark, [], t, hmark, by decide, hdigits h, rfl⟩
    · cases h
  · cases h

/-- In a number without a sign in front, digits only come after a sign. -/
theorem exists_of_readUnsignedDouble? {x : Float} (hsign : sign = '+' ∨ sign = '-') (hmem : sign ∈ s)
    (h : readUnsignedDouble? false s = some x) :
    ∃ front digits, s = front ++ sign :: digits ∧ sign ∉ front ∧ digits.all Char.isDigit = true := by
  have hlower {t : List Char} (h : s.map Char.toLower = t) : sign.toLower ∈ t := h ▸ List.mem_map_of_mem hmem
  have hnumeral {front : List Char} (h : ∀ c ∈ front, c.isDigit = true ∨ c = '.') : sign ∉ front := by
    intro hmem
    rcases hsign with rfl | rfl <;> exact absurd (h _ hmem) (by decide)
  unfold readUnsignedDouble? at h
  dsimp only at h
  split at h
  next hword =>
    rcases hword with hword | hword <;> rcases hsign with rfl | rfl <;> exact absurd (hlower hword) (by decide)
  split at h
  next hword => rcases hsign with rfl | rfl <;> exact absurd (hlower hword) (by decide)
  split at h
  · cases h
  obtain ⟨front, hfront, hnumerals⟩ := readFraction_append (spanDigits s).2
  have hs : s = (spanDigits s).1 ++ front ++ (readFraction (spanDigits s).2).2 := by
    rw [List.append_assoc, ← hfront, spanDigits_append]
  have hbefore : sign ∉ (spanDigits s).1 ++ front := by
    refine hnumeral fun c hc => ?_
    rcases List.mem_append.mp hc with hc | hc
    · exact .inl (List.mem_takeWhile_imp hc)
    · exact hnumerals c hc
  have hrest : sign ∈ (readFraction (spanDigits s).2).2 :=
    (List.mem_append.mp (hs ▸ hmem)).resolve_left hbefore
  split at h
  next hend =>
    rw [hend] at hrest
    cases hrest
  · split at h
    next hexponent =>
      -- The sign is the character between the exponent mark and the digits.
      obtain ⟨mark, signs, digits, hmark, hlength, hdigits, heq⟩ := exists_of_readExponent? hexponent
      have hmark : sign ≠ mark := by
        rintro rfl
        rcases hsign with rfl | rfl <;> exact absurd hmark (by decide)
      have hsigns : sign ∈ signs := by
        rw [heq] at hrest
        rcases List.mem_append.mp ((List.mem_cons.mp hrest).resolve_left hmark) with hin | hin
        · exact hin
        · exact absurd hin (hnumeral fun c hc => .inl (List.all_eq_true.mp hdigits c hc))
      obtain rfl : signs = [sign] := by
        rcases signs with _ | ⟨c, _ | ⟨d, signs⟩⟩
        · cases hsigns
        · rw [List.mem_singleton.mp hsigns]
        · simp at hlength
      refine ⟨(spanDigits s).1 ++ front ++ [mark], digits, ?_, ?_, hdigits⟩
      · rw [List.append_assoc _ [mark]]
        exact hs.trans (congrArg _ heq)
      · rw [List.mem_append, not_or]
        exact ⟨hbefore, fun hin => hmark (List.mem_singleton.mp hin)⟩
    · cases h

/-- Only digits come after a sign inside of a number. -/
theorem digits_of_readDouble? {w t : List Char} {x : Float} (hsign : sign = '+' ∨ sign = '-') (hne : w ≠ [])
    (hw : '+' ∉ w ∧ '-' ∉ w) (h : readDouble? (w ++ sign :: t) = some x) : t.all Char.isDigit = true := by
  obtain ⟨c, w, rfl⟩ := List.exists_cons_of_ne_nil hne
  have hnone : sign ∉ c :: w := by
    rcases hsign with rfl | rfl
    · exact hw.1
    · exact hw.2
  have hunsigned : readUnsignedDouble? false (c :: w ++ sign :: t) = some x := by
    unfold readDouble? at h
    split at h
    next heq => exact absurd (List.cons.inj heq).1 (List.ne_of_not_mem_cons hw.2).symm
    next heq => exact absurd (List.cons.inj heq).1 (List.ne_of_not_mem_cons hw.1).symm
    · exact h
  obtain ⟨front, digits, heq, hfront, hdigits⟩ := exists_of_readUnsignedDouble? hsign (by simp) hunsigned
  have hnot : sign ∉ digits := fun hmem => by
    rcases hsign with rfl | rfl <;> exact absurd (List.all_eq_true.mp hdigits _ hmem) (by decide)
  rw [((List.append_cons_inj_of_notMem hfront hnot).mp heq.symm).2.2] at hdigits
  exact hdigits

end Text

namespace Expression
variable {w : List Char}

/-- The constant with an integer made the double nearest to it. -/
def Constant.asDouble : Constant → Constant
  | .integer i => .double (Double.ofInt i.toInt)
  | c => c

theorem readInteger?_of_digits (hne : w ≠ []) (hw : w.all Char.isDigit = true) :
    readInteger? w = int64? (Text.wholeOf w) := by
  unfold readInteger?
  dsimp only
  split
  next digits => exact absurd hw (by simp)
  · rw [if_pos (by simp [hne, hw])]
    rfl

theorem readInteger?_of_point (hw : '.' ∈ w) : readInteger? w = none := by
  unfold readInteger?
  dsimp only
  split
  next digits =>
    have hpoint : '.' ∈ digits := by simpa using hw
    rw [if_neg]
    · rfl
    · intro h
      exact absurd (List.all_eq_true.mp (Bool.and_eq_true_iff.mp h).2 '.' hpoint) (by decide)
  · rw [if_neg]
    · rfl
    · intro h
      exact absurd (List.all_eq_true.mp (Bool.and_eq_true_iff.mp h).2 '.' hw) (by decide)

/-- Decimal digits denote a whole number; a fraction of zero makes it the double nearest to it. -/
theorem readConstant?_fraction (hne : w ≠ []) (hw : w.all Char.isDigit = true) :
    readConstant? (w ++ ['.', '0']) = (readConstant? w).map Constant.asDouble ∧ (readConstant? w).isSome = true := by
  obtain ⟨hwhole, hzero⟩ := Text.doubleOf_zero w
  have hwith : Text.readDouble? (w ++ ['.', '0']) = some (Double.ofInt (Text.wholeOf w)) := by
    have hfraction : Text.readFraction ['.', '0'] = (['0'], []) := rfl
    rw [Text.readDouble?_of_digits hne hw (by decide) hfraction, hzero]
  have hwithout : Text.readDouble? (w ++ []) = some (Double.ofInt (Text.wholeOf w)) := by
    rw [Text.readDouble?_of_digits hne hw (by decide) rfl, hwhole]
  rw [List.append_nil] at hwithout
  have hpoint : readInteger? (w ++ ['.', '0']) = none := readInteger?_of_point (by simp)
  rw [readConstant?, readConstant?, hpoint, hwith, readInteger?_of_digits hne hw, hwithout]
  cases hi : int64? (Text.wholeOf w) with
  | none => exact ⟨rfl, rfl⟩
  | some i =>
    dsimp only [Option.map_some, Constant.asDouble]
    rw [int64?_eq_some hi]
    exact ⟨rfl, rfl⟩

end Expression
end SignalBridge
