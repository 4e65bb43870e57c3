import SignalBridge.Proofs.Repacking

/-! The integers that are read from payloads. The bits at the positions of a signal make a word of its length. A
    signed signal denotes the word in two's complement, an unsigned one the word as it is, unless it fills all 64
    bits: integers are signed, so the upper half of the words of such a signal wraps around to below zero. -/

namespace SignalBridge

/-! ### Words -/

namespace Payload

theorem gather_lt (payload : Nat) (positions : List Nat) : gather payload positions < bit positions.length := by
  induction positions with
  | nil => exact bit_pos 0
  | cons p positions ih =>
    have hbit := Bool.toNat_le (payload.testBit p)
    rw [gather, List.length_cons, bit_succ]
    omega

/-- The word that the bits at the positions of a signal make, the first one lowest. -/
def word (bytes : List UInt8) (s : Signal) : BitVec s.length :=
  BitVec.ofNat s.length (gather (ofBytes bytes) s.run)

variable {bytes : List UInt8} {s : Signal}

theorem toNat_word : (word bytes s).toNat = gather (ofBytes bytes) s.run := by
  have hlt := gather_lt (ofBytes bytes) s.run
  rw [Signal.length_run, bit_eq] at hlt
  exact Nat.mod_eq_of_lt hlt

theorem getLsbD_word {i p : Nat} (hi : s.run[i]? = some p) : (word bytes s).getLsbD i = bitOf bytes p := by
  rw [BitVec.getLsbD, toNat_word, testBit_gather, hi, Option.any_some, testBit_ofBytes]

end Payload

/-! ### Integers -/

namespace Signal
variable {s : Signal} {i : Int64}

/-- The integer that is read for a word of a signal, with its range. -/
structure Denotes (s : Signal) (word : BitVec s.length) (i : Int64) : Prop where
  signed : s.signed = true →
    i.toInt = word.toInt ∧ -(bit (s.length - 1) : Int) ≤ i.toInt ∧ i.toInt < bit (s.length - 1)
  unsigned : s.signed = false → s.length < 64 ∨ word.msb = false →
    i.toInt = word.toNat ∧ 0 ≤ i.toInt ∧ i.toInt < bit s.length
  wrapped : s.signed = false → s.length = 64 → word.msb = true →
    i.toInt = word.toNat - bit 64 ∧ i.toInt < 0

/-- A value with the scale of a signal, which leaves integers alone if it is one. -/
def scaled (s : Signal) (i : Int64) : Scalar :=
  if s.factor == 1.0 && s.offset == 0.0 then .integer i else .double (s.offset + s.factor * Double.ofInt i.toInt)

theorem numberOf_toNat (word : BitVec s.length) :
    s.numberOf word.toNat = if s.signed then word.toInt else word.toNat := by
  have hmsb : word.msb = decide (bit (s.length - 1) ≤ word.toNat) := by
    rw [BitVec.msb_eq_decide, bit_eq]
    rfl
  rw [numberOf, BitVec.toInt_eq_msb_cond, hmsb, bit_eq s.length]
  cases s.signed with
  | true => simp
  | false => simp

theorem denotes_ofInt (hfits : s.length ≤ 64) (word : BitVec s.length) :
    Denotes s word (Int64.ofInt (s.numberOf word.toNat)) := by
  have hpower (n : Nat) : (2 : Int) ^ n = bit n := by
    rw [bit_eq]
    exact (Int.natCast_pow 2 n).symm
  have hlow : -(bit (s.length - 1) : Int) ≤ word.toInt := hpower _ ▸ word.le_toInt
  have hhigh : word.toInt < bit (s.length - 1) := hpower _ ▸ word.toInt_lt
  have hword : word.toNat < bit s.length := bit_eq _ ▸ word.isLt
  have hmost {k : Nat} (hk : k ≤ 63) : bit k ≤ 2 ^ 63 := by
    rw [bit_eq]
    exact Nat.pow_le_pow_right (by decide) hk
  rw [numberOf_toNat]
  refine ⟨fun hsigned => ?_, fun hsigned hsmall => ?_, fun hsigned hfull hmsb => ?_⟩
  · have hrange := hmost (show s.length - 1 ≤ 63 by omega)
    rw [hsigned, if_pos rfl, Int64.toInt_ofInt_of_le (by omega) (by omega)]
    exact ⟨rfl, hlow, hhigh⟩
  · have htop : word.toNat < 2 ^ 63 := by
      rcases hsmall with hshort | hmsb
      · exact Nat.lt_of_lt_of_le hword (hmost (by omega))
      · have hrange := hmost (show s.length - 1 ≤ 63 by omega)
        rw [BitVec.toInt_eq_msb_cond, hmsb, if_neg Bool.false_ne_true] at hhigh
        omega
    rw [hsigned, if_neg Bool.false_ne_true, Int64.toInt_ofInt_of_le (by omega) (by omega)]
    exact ⟨rfl, Int.natCast_nonneg _, Int.ofNat_lt.mpr hword⟩
  · have hhalf : 2 ^ 63 ≤ word.toNat := by
      rw [BitVec.msb_eq_decide, decide_eq_true_eq] at hmsb
      simpa only [hfull] using hmsb
    have hbit : bit 64 = 2 ^ 64 := by decide
    have hwhole : word.toNat < 2 ^ 64 := by simpa only [hfull, hbit] using hword
    -- The number lies in the upper half of the words, so the nearest integer of 64 bits is one turn below it.
    rw [hsigned, if_neg Bool.false_ne_true, Int64.toInt_ofInt, hbit, Int.bmod_def, Int64.size]
    split <;> omega

end Signal

/-! ### Messages -/

namespace Message
variable {m : Message} {values start : SignalValues} {signals before after : List Signal} {s : Signal} {payload : Nat}
  {bytes : List UInt8}

theorem unpackSignals_eq_ok : m.unpackSignals payload signals = .ok values ↔
    (∀ s ∈ signals, ∀ p ∈ s.run, p < 8 * m.size) ∧ valuesOver payload ∅ signals = values := by
  constructor
  · intro h
    have hfit : ∀ s ∈ signals, ∀ p ∈ s.run, p < 8 * m.size := by
      unfold unpackSignals at h
      generalize (∅ : SignalValues) = start at h
      induction signals generalizing start with
      | nil => exact nofun
      | cons s signals ih =>
        rw [List.foldlM_cons] at h
        obtain ⟨start', hstart, h⟩ := bind_eq_ok.mp h
        obtain ⟨raw, hraw, -⟩ := bind_eq_ok.mp hstart
        exact List.forall_mem_cons.mpr ⟨(rawOf_eq_ok.mp hraw).1, ih _ h⟩
    exact ⟨hfit, Except.ok.inj ((unpackSignals_of_fit payload hfit).symm.trans h)⟩
  · rintro ⟨hfit, rfl⟩
    exact unpackSignals_of_fit payload hfit

/-- Of several signals of one name the last one counts. -/
theorem getElem?_valuesOver_of_notMem (h : ∀ t ∈ signals, t.name ≠ s.name) :
    (valuesOver payload start signals)[s.name]? = start[s.name]? := by
  unfold valuesOver
  induction signals generalizing start with
  | nil => rfl
  | cons t signals ih =>
    rw [List.foldl_cons, ih fun t ht => h t (List.mem_cons_of_mem _ ht), Std.TreeMap.getElem?_insert, if_neg]
    rw [Std.compare_eq_iff_eq]
    exact h t List.mem_cons_self

theorem getElem?_valuesOver_of_last (hlast : ∀ t ∈ after, t.name ≠ s.name) :
    (valuesOver payload start (before ++ s :: after))[s.name]? =
      some (s.valueOf (Payload.gather payload s.run)) := by
  have hsplit : valuesOver payload start (before ++ s :: after) =
      valuesOver payload ((valuesOver payload start before).insert s.name
        (s.valueOf (Payload.gather payload s.run))) after := by
    rw [valuesOver, List.foldl_append, List.foldl_cons]
    rfl
  rw [hsplit, getElem?_valuesOver_of_notMem hlast, Std.TreeMap.getElem?_insert_self]

/-- A payload that is long enough is decoded if the bits of all signals lie in the message. Each signal that takes
    part, and is the last one of its name, has the scaled integer that its word denotes. -/
theorem decode_reads_words (m : Message) (bytes : List UInt8) :
    (m.size ≤ bytes.length → (∀ s ∈ m.signals, ∀ p ∈ s.run, p < 8 * m.size) → ∃ values, m.decode bytes = .ok values) ∧
      ∀ values, m.decode bytes = .ok values →
        ∃ multiplexer, m.multiplexerIn (Payload.ofBytes bytes) = .ok multiplexer ∧
          ∀ before s after, m.active multiplexer = before ++ s :: after → (∀ t ∈ after, t.name ≠ s.name) →
            s.length ≤ 64 → ∃ (word : BitVec s.length) (i : Int64),
              (∀ j p, s.run[j]? = some p → word.getLsbD j = Payload.bitOf bytes p) ∧ s.Denotes word i ∧
                values[s.name]? = some (s.scaled i) := by
  refine ⟨fun hsize hfit => ?_, fun values h => ?_⟩
  · have hin : ∃ multiplexer, m.multiplexerIn (Payload.ofBytes bytes) = .ok multiplexer := by
      cases hs : m.multiplexer.bind m.signal? with
      | none => exact ⟨none, multiplexerIn_of_none hs⟩
      | some s =>
        obtain ⟨name, -, hsignal⟩ := Option.bind_eq_some_iff.mp hs
        have hraw : m.rawOf (Payload.ofBytes bytes) s = .ok _ :=
          rawOf_eq_ok.mpr ⟨hfit s (List.mem_of_find?_eq_some hsignal), rfl⟩
        exact ⟨_, (multiplexerIn_eq_ok hs).mpr ⟨_, hraw, rfl⟩⟩
    obtain ⟨multiplexer, hin⟩ := hin
    have hactive : ∀ s ∈ m.active multiplexer, ∀ p ∈ s.run, p < 8 * m.size := fun s hs =>
      hfit s (List.mem_filter.mp hs).1
    exact ⟨_, decode_eq_ok.mpr ⟨hsize, multiplexer, hin, unpackSignals_eq_ok.mpr ⟨hactive, rfl⟩⟩⟩
  · obtain ⟨-, multiplexer, hin, hread⟩ := decode_eq_ok.mp h
    obtain ⟨-, rfl⟩ := unpackSignals_eq_ok.mp hread
    refine ⟨multiplexer, hin, fun before s after hsplit hlast hfits => ?_⟩
    refine ⟨Payload.word bytes s, _, fun j p hj => Payload.getLsbD_word hj, Signal.denotes_ofInt hfits _, ?_⟩
    rw [hsplit, getElem?_valuesOver_of_last hlast, Payload.toNat_word]
    rfl

/-- The selected signal has twelve bits, all of them ones, from the top of the second byte down. -/
theorem decode_reads_words_big :
    let m := Database.multiplexedMessage
    ∃ values i, m.decode [1, 255, 240, 0] = .ok values ∧ values["SignalB"]? = some (m.signals[2].scaled i) ∧
      i.toInt = -1 := by
  intro m
  have hdecode : ∃ values, m.decode [1, 255, 240, 0] = .ok values := ⟨_, rfl⟩
  obtain ⟨values, hdecode⟩ := hdecode
  obtain ⟨-, hreads⟩ := decode_reads_words m [1, 255, 240, 0]
  obtain ⟨multiplexer, hin, hactive⟩ := hreads values hdecode
  obtain rfl : some 1 = multiplexer := Except.ok.inj hin
  obtain ⟨word, i, hbits, hdenotes, hvalue⟩ := hactive [m.signals[0]] m.signals[2] [] rfl nofun (by decide)
  have hones : word = BitVec.allOnes 12 := by
    refine BitVec.eq_of_getLsbD_eq fun j hj => ?_
    have hrun : ∀ j < 12, ∃ p < 24, m.signals[2].run[j]? = some p ∧ Payload.bitOf [1, 255, 240, 0] p = true := by
      decide +kernel
    obtain ⟨p, -, hp, hone⟩ := hrun j hj
    exact (hbits j p hp).trans (hone.trans (BitVec.getLsbD_allOnes.trans (decide_eq_true hj)).symm)
  refine ⟨values, i, hdecode, hvalue, ?_⟩
  rw [(hdenotes.signed rfl).1, hones]
  rfl

/-- A message with one unsigned signal of 64 bits in units of one half. -/
def wholeWordText : String :=
  "VERSION \"\"\nNS_ :\nBO_ 5 M: 8 X\n SG_ S : 0|64@1+ (0.5,0) [0|0] \"\" X\n"

/-- The word of 64 ones is read as -1, though the signal is unsigned. -/
theorem upper_words_wrap : ∃ d values v, Database.empty.load wholeWordText = .ok d ∧
    (d.message? 5).map (·.signals.map fun s => (s.name, s.signed, s.run)) = some [("S", false, List.range 64)] ∧
      (∀ p < 64, Payload.bitOf (List.replicate 8 255) p = true) ∧
        d.decode 5 (List.replicate 8 255) = .ok values ∧ values["S"]? = some v ∧ v.agrees (.double (-0.5)) := by
  have hload : (Database.empty.load wholeWordText).toOption.any (fun d =>
      decide ((d.message? 5).map (·.signals.map fun s => (s.name, s.signed, s.run)) =
        some [("S", false, List.range 64)]) &&
      (d.decode 5 (List.replicate 8 255)).toOption.any (·["S"]?.any (·.agrees (.double (-0.5))))) = true := by
    decide +kernel
  obtain ⟨d, hd, hread⟩ := (Option.any_eq_true _ _).mp hload
  obtain ⟨hsignal, hdecode⟩ := (Bool.and_eq_true _ _).mp hread
  obtain ⟨values, hvalues, hvalue⟩ := (Option.any_eq_true _ _).mp hdecode
  obtain ⟨v, hv, hagrees⟩ := (Option.any_eq_true _ _).mp hvalue
  exact ⟨d, values, v, toOption_eq_some.mp hd, of_decide_eq_true hsignal, by decide, toOption_eq_some.mp hvalues, hv,
    hagrees⟩

end Message
end SignalBridge
