import Mathlib.Data.Nat.PSub
import SignalBridge.Proofs.BitReading

/-! Bits, bytes and words of 64 bits, with operations that have an outcome in their domain only: a shift is shorter
    than the word, a bit lies in the frame and in a byte that is there, and what is extended by its sign has from 1 to
    64 bits. In their domain they do what is done to whole numbers. -/

namespace SignalBridge.Checked
open Payload
variable {w : Nat}

def shiftLeft? (x : BitVec w) (n : Nat) : Option (BitVec w) :=
  if n < w then some (x <<< n) else none

def shiftRight? (x : BitVec w) (n : Nat) : Option (BitVec w) :=
  if n < w then some (x >>> n) else none

def mask? (length : Nat) : Option (BitVec 64) :=
  if length < 64 then (shiftLeft? 1 length).map (· - 1) else some (.allOnes 64)

def signExtend? (x : BitVec 64) (length : Nat) : Option (BitVec 64) :=
  if 1 ≤ length ∧ length ≤ 64 then
    if length < 64 then do
      let sign ← shiftLeft? 1 (length - 1)
      if x &&& sign = 0 then return x else return x ||| (← shiftLeft? (.allOnes 64) length)
    else some x
  else none

def readBit? (size : Nat) (bytes : List UInt8) (p : Nat) : Option (BitVec 64) := do
  guard (p < 8 * size)
  let byte ← bytes[p / 8]?
  return ((← shiftRight? byte.toBitVec (p % 8)) &&& 1).setWidth 64

def setBit? (size : Nat) (bytes : List UInt8) (p : Nat) : Option (List UInt8) := do
  guard (p < 8 * size)
  let byte ← bytes[p / 8]?
  return bytes.set (p / 8) (.ofBitVec (byte.toBitVec ||| (← shiftLeft? (1 : BitVec 8) (p % 8))))

def gather? (size : Nat) (bytes : List UInt8) (raw : BitVec 64) (i : Nat) : List Nat → Option (BitVec 64)
  | [] => some raw
  | p :: positions => do
    let b ← readBit? size bytes p
    gather? size bytes (raw ||| (← shiftLeft? b i)) (i + 1) positions

def scatter? (size : Nat) (raw : BitVec 64) (bytes : List UInt8) (i : Nat) : List Nat → Option (List UInt8)
  | [] => some bytes
  | p :: positions => do
    let shifted ← shiftRight? raw i
    if shifted &&& 1 = 1 then scatter? size raw (← setBit? size bytes p) (i + 1) positions
    else scatter? size raw bytes (i + 1) positions

theorem shiftLeft?_eq {x : BitVec w} {n : Nat} (hn : n < w) : shiftLeft? x n = some (x <<< n) := if_pos hn

theorem shiftRight?_eq {x : BitVec w} {n : Nat} (hn : n < w) : shiftRight? x n = some (x >>> n) := if_pos hn

/-- The mask leaves of a word what fits the length. -/
theorem exists_mask? {length : Nat} (hlength : length ≤ 64) :
    ∃ x, mask? length = some x ∧ ∀ y : BitVec 64, (y &&& x).toNat = y.toNat % bit length := by
  unfold mask?
  rw [bit_eq]
  split
  next hshort =>
    have hpow : Nat.pow 2 length < Nat.pow 2 64 := Nat.pow_lt_pow_right (by decide) hshort
    have hpos : 0 < Nat.pow 2 length := Nat.two_pow_pos length
    have hvalue : ((1 : BitVec 64) <<< length - 1).toNat = Nat.pow 2 length - 1 := by
      have hshift : ((1 : BitVec 64) <<< length).toNat = Nat.pow 2 length := by
        rw [BitVec.toNat_shiftLeft, Nat.shiftLeft_eq, show (1 : BitVec 64).toNat = 1 from rfl, Nat.one_mul]
        exact Nat.mod_eq_of_lt hpow
      have hone : (1 : BitVec 64).toNat = 1 := rfl
      rw [BitVec.toNat_sub_of_le (by rw [BitVec.le_def, hshift, hone]; exact hpos), hshift, hone]
    refine ⟨_, by rw [shiftLeft?_eq hshort]; rfl, fun y => ?_⟩
    rw [BitVec.toNat_and, hvalue]
    exact Nat.and_two_pow_sub_one_eq_mod y.toNat length
  next hlong =>
    obtain rfl : length = 64 := by omega
    refine ⟨_, rfl, fun y => ?_⟩
    rw [BitVec.and_allOnes]
    exact (Nat.mod_eq_of_lt y.isLt).symm

/-- A word whose bits fit the length is extended as the number of that length is. -/
theorem signExtend?_eq {x : BitVec 64} {length : Nat} (hlow : 1 ≤ length) (hhigh : length ≤ 64)
    (hx : x.toNat < bit length) : signExtend? x length = some ((x.setWidth length).signExtend 64) := by
  have hupper : ∀ j, length ≤ j → x.getLsbD j = false := fun j hj => testBit_eq_false_of_lt_bit hx hj
  rw [signExtend?, if_pos ⟨hlow, hhigh⟩]
  split
  next hshort =>
    have hmsb : (x.setWidth length).msb = x.getLsbD (length - 1) := by
      rw [BitVec.msb_eq_getLsbD_last, BitVec.getLsbD_setWidth]
      simp [show length - 1 < length by omega]
    have hsign : x &&& (1 : BitVec 64) <<< (length - 1) = 0 ↔ x.getLsbD (length - 1) = false := by
      change x &&& BitVec.twoPow 64 (length - 1) = 0#64 ↔ _
      have hpower : (BitVec.twoPow 64 (length - 1)).getLsbD (length - 1) = true := by
        simp [show length - 1 < 64 by omega]
      rw [BitVec.and_twoPow]
      cases x.getLsbD (length - 1) with
      | false => simp
      | true =>
        refine iff_of_false (fun hzero => ?_) nofun
        rw [if_pos rfl] at hzero
        rw [hzero] at hpower
        simp at hpower
    rw [shiftLeft?_eq (by omega), shiftLeft?_eq hshort]
    simp only [Option.bind_eq_bind, Option.bind_some]
    split
    next hzero =>
      refine congrArg some (BitVec.eq_of_getLsbD_eq fun j hj => ?_)
      rw [BitVec.getLsbD_signExtend, hmsb, hsign.mp hzero]
      by_cases hjlength : j < length
      · simp [hj, hjlength]
      · simp [hjlength, hupper j (by omega)]
    next hone =>
      have hset : x.getLsbD (length - 1) = true := by
        rw [← Bool.not_eq_false]
        exact mt hsign.mpr hone
      refine congrArg some (BitVec.eq_of_getLsbD_eq fun j hj => ?_)
      rw [BitVec.getLsbD_signExtend, hmsb, hset, BitVec.getLsbD_or, BitVec.getLsbD_shiftLeft]
      by_cases hjlength : j < length
      · simp [hj, hjlength]
      · have hones : (BitVec.allOnes 64).getLsbD (j - length) = true := by
          rw [BitVec.getLsbD_allOnes]
          exact decide_eq_true (by omega)
        rw [hones]
        simp [hj, hjlength]
  next hlong =>
    obtain rfl : length = 64 := by omega
    simp

/-- The lowest bit of a word that was shifted to the right. -/
theorem toNat_shiftRight_and_one {x : BitVec w} {n : Nat} (hw : 0 < w) :
    ((x >>> n) &&& 1).toNat = (x.toNat.testBit n).toNat := by
  have hone : (1 : BitVec w).toNat = 1 := Nat.mod_eq_of_lt (Nat.one_lt_two_pow (Nat.ne_of_gt hw))
  rw [BitVec.toNat_and, BitVec.toNat_ushiftRight, hone, Nat.and_one_is_mod, Nat.shiftRight_eq_div_pow, Nat.toNat_testBit]

theorem exists_readBit? {bytes : List UInt8} {size p : Nat} (hp : p < 8 * size) (hsize : size ≤ bytes.length) :
    ∃ b, readBit? size bytes p = some b ∧ b.toNat = (bitOf bytes p).toNat := by
  have hi : p / 8 < bytes.length := by omega
  have hk : p % 8 < 8 := Nat.mod_lt p (by decide)
  refine ⟨((bytes[p / 8].toBitVec >>> (p % 8)) &&& 1).setWidth 64, ?_, ?_⟩
  · rw [readBit?, guard, if_pos hp]
    simp [hi, shiftRight?_eq hk]
  · have hbyte : bytes.getD (p / 8) 0 = bytes[p / 8] := by simp [hi]
    rw [BitVec.toNat_setWidth_of_le (by decide), toNat_shiftRight_and_one (by decide), bitOf, hbyte, UInt8.toNat_toBitVec]

/-- A bit put above the bits of a word adds its power of two. -/
theorem toNat_or_shiftLeft {raw b : BitVec 64} {i : Nat} (hi : i < 64) (hraw : raw.toNat < bit i) (hb : b.toNat ≤ 1) :
    (raw ||| b <<< i).toNat = raw.toNat + bit i * b.toNat := by
  rw [bit_eq] at hraw ⊢
  have hfits : Nat.pow 2 i * b.toNat < Nat.pow 2 64 := by
    have hpow : Nat.pow 2 i < Nat.pow 2 64 := Nat.pow_lt_pow_right (by decide) hi
    have hle := Nat.mul_le_mul_left (Nat.pow 2 i) hb
    omega
  have hshift : (b <<< i).toNat = Nat.pow 2 i * b.toNat := by
    rw [BitVec.toNat_shiftLeft, Nat.shiftLeft_eq, Nat.mul_comm]
    exact Nat.mod_eq_of_lt hfits
  rw [BitVec.toNat_or, hshift, Nat.or_comm, Nat.add_comm]
  exact (Nat.two_pow_add_eq_or_of_lt hraw b.toNat).symm

theorem exists_gather? {bytes : List UInt8} {size : Nat} (hsize : size ≤ bytes.length) {positions : List Nat}
    {raw : BitVec 64} {i : Nat} (hfit : ∀ p ∈ positions, p < 8 * size) (hi : i + positions.length ≤ 64)
    (hraw : raw.toNat < bit i) : ∃ x, gather? size bytes raw i positions = some x ∧
      x.toNat = raw.toNat + bit i * gather (ofBytes bytes) positions := by
  induction positions generalizing raw i with
  | nil => exact ⟨raw, rfl, by simp [gather]⟩
  | cons p positions ih =>
    rw [List.length_cons] at hi
    obtain ⟨b, hread, hb⟩ := exists_readBit? (hfit p List.mem_cons_self) hsize
    have hone : b.toNat ≤ 1 := hb ▸ Bool.toNat_le _
    have hor := toNat_or_shiftLeft (by omega) hraw hone
    -- The word stays below the place of the next bit, so that every bit is put above what was read before it.
    have hlt : (raw ||| b <<< i).toNat < bit (i + 1) := by
      have hle := Nat.mul_le_mul_left (bit i) hone
      rw [bit_succ]
      omega
    obtain ⟨x, hx, hvalue⟩ := ih (fun q hq => hfit q (List.mem_cons_of_mem p hq)) (by omega) hlt
    refine ⟨x, ?_, ?_⟩
    · rw [gather?, hread]
      simp only [Option.bind_eq_bind, Option.bind_some, shiftLeft?_eq (show i < 64 by omega), hx]
    · rw [hvalue, hor, hb, gather, testBit_ofBytes, bit_succ, Nat.mul_add, ← Nat.mul_assoc, Nat.mul_comm 2, Nat.add_assoc]

/-! ### Writing -/

/-- Setting a bit of a payload sets it in the byte that holds it. -/
theorem toBytes_or_bit {size n p : Nat} (hp : p < 8 * size) : ∃ byte, (toBytes size n)[p / 8]? = some byte ∧
    toBytes size (n ||| bit p) =
      (toBytes size n).set (p / 8) (.ofBitVec (byte.toBitVec ||| (1 : BitVec 8) <<< (p % 8))) := by
  induction size generalizing n p with
  | zero => omega
  | succ size ih =>
    have hlow : (n ||| bit p) % 256 = n % 256 ||| bit p % 256 := Nat.or_mod_two_pow (n := 8)
    have hhigh : (n ||| bit p) / 256 = n / 256 ||| bit p / 256 := Nat.or_div_two_pow (n := 8)
    rw [toBytes, toBytes, hlow, hhigh]
    by_cases hfirst : p < 8
    · refine ⟨_, by rw [Nat.div_eq_of_lt hfirst]; rfl, ?_⟩
      have hbyte : ∀ p < 8, BitVec.ofNat 8 (bit p) = (1 : BitVec 8) <<< p ∧ bit p < 256 := by decide
      obtain ⟨hone, hlt⟩ := hbyte p hfirst
      rw [Nat.div_eq_of_lt hfirst, Nat.mod_eq_of_lt hfirst, List.set_cons_zero, Nat.div_eq_of_lt hlt, Nat.mod_eq_of_lt hlt,
        Nat.or_zero, ← hone]
      congr 1
      exact congrArg UInt8.ofBitVec BitVec.ofNat_or
    · obtain ⟨byte, hbyte, hset⟩ := ih (n := n / 256) (p := p - 8) (by omega)
      have hdiv : p / 8 = (p - 8) / 8 + 1 := by omega
      have hmod : p % 8 = (p - 8) % 8 := by omega
      have hbit : bit p = 256 * bit (p - 8) := by
        rw [show (256 : Nat) = bit 8 from rfl, ← bit_add, Nat.add_sub_of_le (by omega)]
      refine ⟨byte, by rw [hdiv]; exact hbyte, ?_⟩
      rw [hdiv, hmod, List.set_cons_succ, ← hset, hbit, Nat.mul_mod_right, Nat.or_zero, Nat.mul_div_right _ (by decide)]

theorem setBit?_toBytes {size n p : Nat} (hp : p < 8 * size) :
    setBit? size (toBytes size n) p = some (toBytes size (n ||| bit p)) := by
  obtain ⟨byte, hbyte, hset⟩ := toBytes_or_bit (n := n) hp
  have hk : p % 8 < 8 := Nat.mod_lt p (by decide)
  rw [hset, setBit?, guard, if_pos hp]
  simp [hbyte, shiftLeft?_eq hk]

theorem scatter?_toBytes {size n : Nat} {raw : BitVec 64} {positions : List Nat} {i : Nat}
    (hfit : ∀ p ∈ positions, p < 8 * size) (hi : i + positions.length ≤ 64) :
    scatter? size raw (toBytes size n) i positions =
      some (toBytes size (n ||| scatter (raw.toNat / bit i) positions)) := by
  induction positions generalizing n i with
  | nil => simp [scatter?, scatter]
  | cons p positions ih =>
    rw [List.length_cons] at hi
    have hfit' : ∀ q ∈ positions, q < 8 * size := fun q hq => hfit q (List.mem_cons_of_mem p hq)
    have hbit : (raw >>> i) &&& 1 = 1 ↔ (raw.toNat / bit i).testBit 0 = true := by
      have htest : (raw.toNat / bit i).testBit 0 = raw.toNat.testBit i := by
        rw [bit_eq]
        exact (Nat.testBit_div_two_pow (n := i) raw.toNat 0).trans (by rw [Nat.zero_add])
      rw [htest, ← BitVec.toNat_inj, toNat_shiftRight_and_one (by decide)]
      cases raw.toNat.testBit i <;> simp
    have hhalf : raw.toNat / bit i / 2 = raw.toNat / bit (i + 1) := by
      rw [Nat.div_div_eq_div_mul, bit_succ, Nat.mul_comm]
    rw [scatter?, shiftRight?_eq (by omega), scatter, hhalf]
    simp only [Option.bind_eq_bind, Option.bind_some]
    by_cases hone : (raw >>> i) &&& 1 = 1
    · rw [if_pos hone, setBit?_toBytes (hfit p List.mem_cons_self), Option.bind_some, ih hfit' (by omega),
        if_pos (hbit.mp hone), Nat.or_assoc]
    · rw [if_neg hone, ih hfit' (by omega), if_neg (mt hbit.mpr hone), Nat.zero_or]

end SignalBridge.Checked
