import SignalBridge.Bus.Payload

/-! The bits of payloads. Writing a number into bytes and reading it back keeps the bits that fit.
    Scattering puts bit `i` of a number at the `i`-th of some positions, and gathering takes it from
    there: over positions without repetition one undoes the other. -/

namespace SignalBridge

/-! ### Powers of two -/

theorem bit_eq (n : Nat) : bit n = Nat.pow 2 n := Nat.one_shiftLeft n

theorem bit_pos (n : Nat) : 0 < bit n := by
  rw [bit_eq]
  exact Nat.two_pow_pos n

theorem bit_add (m n : Nat) : bit (m + n) = bit m * bit n := by
  simp only [bit_eq]
  exact Nat.pow_add 2 m n

theorem bit_succ (n : Nat) : bit (n + 1) = 2 * bit n := by
  rw [Nat.add_comm, bit_add]
  rfl

theorem testBit_bit {n p : Nat} : (bit n).testBit p = decide (n = p) := by
  rw [bit_eq]
  exact Nat.testBit_two_pow

theorem testBit_eq_false_of_lt_bit {n i k : Nat} (hn : n < bit k) (hi : k ≤ i) : n.testBit i = false := by
  rw [bit_eq] at hn
  exact Nat.testBit_lt_two_pow (Nat.lt_of_lt_of_le hn (Nat.pow_le_pow_right (by omega) hi))

namespace Payload

/-! ### Bytes -/

@[simp] theorem length_toBytes : ∀ {size n : Nat}, (toBytes size n).length = size
  | 0, _ => rfl
  | size + 1, n => by simp [toBytes, length_toBytes]

/-- The first byte holds the lowest eight bits. -/
theorem testBit_ofBytes_cons {b : UInt8} {bytes : List UInt8} {p : Nat} :
    (ofBytes (b :: bytes)).testBit p = if p < 8 then b.toNat.testBit p else (ofBytes bytes).testBit (p - 8) := by
  have hb : b.toNat < Nat.pow 2 8 := b.toNat_lt
  have heq : ofBytes (b :: bytes) = Nat.pow 2 8 * ofBytes bytes + b.toNat := Nat.add_comm _ _
  rw [heq]
  exact Nat.testBit_two_pow_mul_add _ hb p

/-- Bytes keep the bits of a number that fit into them. -/
theorem testBit_ofBytes_toBytes : ∀ {size n p : Nat},
    (ofBytes (toBytes size n)).testBit p = (decide (p < 8 * size) && n.testBit p)
  | 0, n, p => by simp [toBytes, ofBytes]
  | size + 1, n, p => by
    rw [toBytes, testBit_ofBytes_cons]
    by_cases hp : p < 8
    · have hbyte : (UInt8.ofNat (n % 256)).toNat = n % Nat.pow 2 8 := by simp
      rw [if_pos hp, hbyte]
      have hlt : p < 8 * (size + 1) := by omega
      simp only [hlt, decide_true, Bool.true_and]
      exact (Nat.testBit_mod_two_pow n 8 p).trans (by simp [hp])
    · have hdiv : (n / 256).testBit (p - 8) = n.testBit p := by
        have := Nat.testBit_div_two_pow (n := 8) n (p - 8)
        rwa [Nat.sub_add_cancel (by omega)] at this
      rw [if_neg hp, testBit_ofBytes_toBytes, hdiv]
      congr 1
      exact decide_eq_decide.mpr (by omega)

/-! ### Scattering and gathering -/

theorem testBit_scatter {p : Nat} : ∀ {positions : List Nat} {raw : Nat},
    (scatter raw positions).testBit p = true ↔ ∃ i, positions[i]? = some p ∧ raw.testBit i = true
  | [], raw => by simp [scatter]
  | q :: positions, raw => by
    have hhead : (if raw.testBit 0 then bit q else 0).testBit p = true ↔ q = p ∧ raw.testBit 0 = true := by
      cases raw.testBit 0 <;> simp [testBit_bit]
    rw [scatter, Nat.testBit_or, Bool.or_eq_true, hhead, testBit_scatter]
    constructor
    · rintro (⟨rfl, h0⟩ | ⟨i, hi, hbit⟩)
      · exact ⟨0, rfl, h0⟩
      · exact ⟨i + 1, hi, by rwa [Nat.testBit_succ]⟩
    · rintro ⟨_ | i, hi, hbit⟩
      · exact Or.inl ⟨Option.some.inj hi, hbit⟩
      · exact Or.inr ⟨i, hi, by rwa [Nat.testBit_succ] at hbit⟩

theorem testBit_gather {payload : Nat} : ∀ {positions : List Nat} {i : Nat},
    (gather payload positions).testBit i = (positions[i]?).any payload.testBit
  | [], i => by simp [gather]
  | p :: positions, 0 => by
    rw [gather, Nat.testBit_zero]
    cases h : payload.testBit p <;> simp [h]
  | p :: positions, i + 1 => by
    have hhalf : ((payload.testBit p).toNat + 2 * gather payload positions) / 2 = gather payload positions := by
      have := Bool.toNat_le (payload.testBit p)
      omega
    rw [gather, Nat.testBit_succ, hhalf, testBit_gather]
    rfl

/-- A number is gathered from a payload that holds its bits at the positions. -/
theorem gather_eq {payload raw : Nat} {positions : List Nat} (hraw : raw < bit positions.length)
    (hbits : ∀ i p, positions[i]? = some p → payload.testBit p = raw.testBit i) :
    gather payload positions = raw := by
  apply Nat.eq_of_testBit_eq
  intro i
  rw [testBit_gather]
  cases hp : positions[i]? with
  | some p => exact hbits i p hp
  | none => exact (testBit_eq_false_of_lt_bit hraw (List.getElem?_eq_none_iff.mp hp)).symm

end Payload
end SignalBridge
