import SignalBridge.Proofs.Loading
import SignalBridge.Proofs.RoundTrip

/-! Packing what was read. Values that stand for the bits of a payload are packed into those bits again,
    also where signals lie over each other: a shared bit is read the same way by all of them. What no
    signal that takes part covers is left zero. -/

namespace SignalBridge

namespace Payload

/-- Bit `p % 8` of byte `p / 8`. -/
def bitOf (bytes : List UInt8) (p : Nat) : Bool :=
  (bytes.getD (p / 8) 0).toNat.testBit (p % 8)

theorem testBit_ofBytes : ∀ {bytes : List UInt8} {p : Nat}, (ofBytes bytes).testBit p = bitOf bytes p
  | [], p => by simp [ofBytes, bitOf]
  | b :: bytes, p => by
    rw [testBit_ofBytes_cons]
    split
    case isTrue hp => rw [bitOf, Nat.div_eq_of_lt hp, Nat.mod_eq_of_lt hp, List.getD_cons_zero]
    case isFalse hp =>
      have hdiv : p / 8 = (p - 8) / 8 + 1 := by omega
      have hmod : p % 8 = (p - 8) % 8 := by omega
      rw [testBit_ofBytes, bitOf, bitOf, hdiv, hmod, List.getD_cons_succ]

end Payload

namespace Message
variable {m : Message} {values : SignalValues} {signals : List Signal} {payload packed : Nat} {s : Signal}

/-! ### Packing read bits -/

/-- Signals that have their bits from the values and lie inside the frame can be packed. -/
theorem exists_packSignals (h : ∀ s ∈ signals, (∃ raw, s.RawFrom values raw) ∧ ∀ p ∈ s.run, p < 8 * m.size) :
    ∃ payload, m.packSignals values signals = .ok payload := by
  induction signals with
  | nil => exact ⟨0, rfl⟩
  | cons s signals ih =>
    obtain ⟨⟨raw, hraw⟩, hfit⟩ := h s List.mem_cons_self
    obtain ⟨rest, hrest⟩ := ih fun t ht => h t (List.mem_cons_of_mem _ ht)
    exact ⟨_, packSignals_cons_eq_ok.mpr ⟨_, rest, packSignal_eq_ok.mpr ⟨raw, hraw, hfit, rfl⟩, hrest, rfl⟩⟩

/-- The positions that some signals cover. -/
def covered (signals : List Signal) (p : Nat) : Bool :=
  signals.any (·.run.contains p)

theorem covered_iff {p : Nat} : covered signals p = true ↔ ∃ s ∈ signals, p ∈ s.run := by
  simp [covered]

/-- Bits that were gathered from a payload are packed where they were, and nothing else is. -/
theorem testBit_repacked (hpack : m.packSignals values signals = .ok packed)
    (hread : ∀ s ∈ signals, s.RawFrom values (Payload.gather payload s.run)) {p : Nat} :
    packed.testBit p = (payload.testBit p && covered signals p) := by
  rw [Bool.eq_iff_iff, testBit_packSignals hpack, Bool.and_eq_true, covered_iff]
  constructor
  · rintro ⟨s, hs, raw, i, hraw, hi, hbit⟩
    obtain rfl := hraw.unique (hread s hs)
    rw [Payload.testBit_gather, hi] at hbit
    exact ⟨hbit, s, hs, List.mem_of_getElem? hi⟩
  · rintro ⟨hbit, s, hs, hp⟩
    obtain ⟨i, hi⟩ := List.mem_iff_getElem?.mp hp
    refine ⟨s, hs, _, i, hread s hs, hi, ?_⟩
    rw [Payload.testBit_gather, hi]
    exact hbit

/-! ### The multiplexer -/

theorem signal?_of_nodup (hnames : m.signalNames.Nodup) (hs : s ∈ m.signals) : m.signal? s.name = some s := by
  cases hfind : m.signal? s.name with
  | none => simpa using List.find?_eq_none.mp hfind s hs
  | some t =>
    have hname : t.name = s.name := by simpa using List.find?_some hfind
    exact congrArg some (List.inj_on_of_nodup_map hnames (List.mem_of_find?_eq_some hfind) hs hname)

/-- Values that stand for the bits of a payload select the signals that the payload selects, if the
    multiplexer takes part in any case. -/
theorem multiplexerRaw_of_read {multiplexer : Option Nat} (hnames : m.signalNames.Nodup)
    (halways : ∀ name, m.multiplexer = some name → ∃ s ∈ m.signals, s.name = name ∧ s.selector = none)
    (hin : m.multiplexerIn payload = .ok multiplexer)
    (hread : ∀ s ∈ m.active multiplexer, s.RawFrom values (Payload.gather payload s.run)) :
    m.multiplexerRaw values = .ok multiplexer := by
  cases hname : m.multiplexer with
  | none =>
    have hnone : m.multiplexerIn payload = .ok none := multiplexerIn_of_none (by rw [hname, Option.bind_none])
    obtain rfl := Except.ok.inj (hnone.symm.trans hin)
    exact multiplexerRaw_of_none hname
  | some name =>
    obtain ⟨s, hs, rfl, hselector⟩ := halways name hname
    have hsignal := signal?_of_nodup hnames hs
    have hactive : s ∈ m.active multiplexer := List.mem_filter.mpr ⟨hs, by rw [Signal.isActive, hselector]⟩
    have hbind : m.multiplexer.bind m.signal? = some s := by rw [hname, Option.bind_some, hsignal]
    obtain ⟨raw, hrawOf, rfl⟩ := (multiplexerIn_eq_ok hbind).mp hin
    obtain ⟨-, rfl⟩ := rawOf_eq_ok.mp hrawOf
    exact (multiplexerRaw_eq_ok hname hsignal).mpr ⟨_, hread s hactive, rfl⟩

end Message

namespace Database
variable {sources : List Source} {frame : Nat} {m : Message} {bytes : List UInt8} {values decoded : SignalValues}

/-- Values whose bits are those that a payload has for the signals it selects are encoded as the payload,
    cut to the size of the message and with every bit cleared that none of these signals covers. -/
theorem encode_decode (hm : (empty.loadAll sources).message? frame = some m) (hnames : m.signalNames.Nodup)
    (hdecode : (empty.loadAll sources).decode frame bytes = .ok decoded)
    (hread : ∀ multiplexer, m.multiplexerIn (Payload.ofBytes bytes) = .ok multiplexer →
      ∀ s ∈ m.active multiplexer, ∃ v raw, values[s.name]? = some v ∧ s.toRaw v = .ok raw ∧
        m.rawOf (Payload.ofBytes bytes) s = .ok raw) :
    ∃ multiplexer, m.multiplexerIn (Payload.ofBytes bytes) = .ok multiplexer ∧
      ∃ encoded, (empty.loadAll sources).encode frame values = .ok encoded ∧ encoded.length = m.size ∧
        ∀ p < 8 * m.size, Payload.bitOf encoded p =
          (Payload.bitOf bytes p && Message.covered (m.active multiplexer) p) := by
  rw [decode_of_message? hm] at hdecode
  obtain ⟨-, multiplexer, hin, -⟩ := Message.decode_eq_ok.mp hdecode
  have hraw : ∀ s ∈ m.active multiplexer, s.RawFrom values (Payload.gather (Payload.ofBytes bytes) s.run) ∧
      ∀ p ∈ s.run, p < 8 * m.size := by
    intro s hs
    obtain ⟨v, raw, hv, hraw, hrawOf⟩ := hread multiplexer hin s hs
    obtain ⟨hfit, rfl⟩ := Message.rawOf_eq_ok.mp hrawOf
    exact ⟨⟨v, hv, hraw⟩, hfit⟩
  obtain ⟨declaration, hdeclared⟩ := declared_of_message? hm
  have hmux := Message.multiplexerRaw_of_read hnames
    (fun _ => Message.multiplexer_of_ofDeclaration hdeclared) hin fun s hs => (hraw s hs).1
  obtain ⟨packed, hpack⟩ := Message.exists_packSignals fun s hs => ⟨⟨_, (hraw s hs).1⟩, (hraw s hs).2⟩
  refine ⟨multiplexer, hin, Payload.toBytes m.size packed, ?_, Payload.length_toBytes, fun p hp => ?_⟩
  · rw [encode_of_message? hm]
    exact Message.encode_eq_ok.mpr ⟨multiplexer, packed, hmux, hpack, rfl⟩
  · rw [← Payload.testBit_ofBytes, ← Payload.testBit_ofBytes, Payload.testBit_ofBytes_toBytes, decide_eq_true hp,
      Bool.true_and, Message.testBit_repacked hpack fun s hs => (hraw s hs).1]

/-- A message with a multiplexer, under whose value 1 a big-endian signal lies over the multiplexer itself
    and over a little-endian one. -/
def overlaidMessage : Message :=
  let s (name : String) (start length : Nat) (order : ByteOrder) (selector : Option Nat) : Signal :=
    { name, start, length, order, signed := false, factor := 1, offset := 0, least := 0, greatest := 0, unit := none
      selector }
  { frame := 512, extended := false, name := "Overlaid", size := 2, sender := none
    signals := [s "Mode" 0 4 .little none, s "Wide" 7 12 .big (some 1), s "Low" 4 4 .little (some 1),
      s "Other" 0 16 .little (some 2)]
    multiplexer := some "Mode" }

/-- The text that declares it. -/
def overlaidText : String :=
  "VERSION \"\"\nNS_ :\nBO_ 512 Overlaid: 2 Vector__XXX\n" ++
  " SG_ Mode M : 0|4@1+ (1,0) [0|0] \"\" A\n SG_ Wide m1 : 7|12@0+ (1,0) [0|0] \"\" A\n" ++
  " SG_ Low m1 : 4|4@1+ (1,0) [0|0] \"\" A\n SG_ Other m2 : 0|16@1+ (1,0) [0|0] \"\" A\n"

/-- The third byte is beyond the message, and no signal covers the bits 8 to 11. -/
theorem encode_decode_overlaid :
    let d := empty.loadAll [.text overlaidText]
    let values : SignalValues :=
      Std.TreeMap.ofList [("Mode", Scalar.integer 1), ("Wide", Scalar.integer 0x51a), ("Low", Scalar.integer 5)]
    (∃ decoded, d.decode 512 [0x51, 0xa7, 0xff] = .ok decoded) ∧
      ∃ encoded, d.encode 512 values = .ok encoded ∧ encoded.length = 2 ∧
        ∀ p < 16, Payload.bitOf encoded p = (Payload.bitOf [0x51, 0xa7, 0xff] p && !(8 ≤ p && p < 12)) := by
  intro d values
  have hm : d.message? 512 = some overlaidMessage := by decide +kernel
  have hdecode : ∃ decoded, d.decode 512 [0x51, 0xa7, 0xff] = .ok decoded := by
    rw [decode_of_message? hm]
    exact ⟨_, rfl⟩
  refine ⟨hdecode, ?_⟩
  obtain ⟨decoded, hdecode⟩ := hdecode
  have hread : ∀ s ∈ overlaidMessage.active (some 1), ∃ v raw, values[s.name]? = some v ∧ s.toRaw v = .ok raw ∧
      overlaidMessage.rawOf (Payload.ofBytes [0x51, 0xa7, 0xff]) s = .ok raw := by
    have hactive : overlaidMessage.active (some 1) = overlaidMessage.signals.take 3 := rfl
    rw [hactive]
    rintro s (_ | ⟨_, _ | ⟨_, _ | ⟨_, ⟨⟩⟩⟩⟩)
    · exact ⟨_, 1, rfl, rfl, rfl⟩
    · exact ⟨_, 0x51a, rfl, rfl, rfl⟩
    · exact ⟨_, 5, rfl, rfl, rfl⟩
  obtain ⟨multiplexer, hin, encoded, hencode, hlength, hbits⟩ :=
    encode_decode hm (by decide) hdecode (fun _ hin => Except.ok.inj hin ▸ hread)
  obtain rfl : some 1 = multiplexer := Except.ok.inj hin
  refine ⟨encoded, hencode, hlength, fun p hp => ?_⟩
  rw [hbits p hp]
  congr 1
  revert p
  decide

end Database
end SignalBridge
