import SignalBridge.Proofs.Packing

/-! Reading a packed payload. What a payload is unpacked to has exactly the names of the signals that
    take part. When the multiplexer is unshared, reading finds the value of it that packing used, so
    both see the same signals. -/

namespace SignalBridge
namespace Message
variable {m : Message} {values : SignalValues} {signals : List Signal} {payload : Nat}

/-! ### Unpacking -/

/-- The values of some signals in a payload, put over other values. -/
def valuesOver (payload : Nat) (values : SignalValues) (signals : List Signal) : SignalValues :=
  signals.foldl (fun values s => values.insert s.name (s.valueOf (Payload.gather payload s.run))) values

theorem rawOf_eq_ok {s : Signal} {raw : Nat} : m.rawOf payload s = .ok raw ↔
    (∀ p ∈ s.run, p < 8 * m.size) ∧ Payload.gather payload s.run = raw := by
  rw [rawOf, map_eq_ok]
  constructor
  · rintro ⟨positions, hpos, rfl⟩
    obtain ⟨hfit, rfl⟩ := Signal.positions_eq_ok.mp hpos
    exact ⟨hfit, rfl⟩
  · rintro ⟨hfit, rfl⟩
    exact ⟨s.run, Signal.positions_eq_ok.mpr ⟨hfit, rfl⟩, rfl⟩

theorem multiplexerIn_of_none (hnone : m.multiplexer.bind m.signal? = none) : m.multiplexerIn payload = .ok none := by
  rw [multiplexerIn, hnone]

theorem multiplexerIn_eq_ok {s : Signal} {multiplexer : Option Nat} (hs : m.multiplexer.bind m.signal? = some s) :
    m.multiplexerIn payload = .ok multiplexer ↔ ∃ raw, m.rawOf payload s = .ok raw ∧ some raw = multiplexer := by
  rw [multiplexerIn, hs]
  exact map_eq_ok

/-- Signals that lie inside the frame can be unpacked. -/
theorem unpackSignals_of_fit (payload : Nat) (hfit : ∀ s ∈ signals, ∀ p ∈ s.run, p < 8 * m.size) :
    m.unpackSignals payload signals = .ok (valuesOver payload ∅ signals) := by
  unfold unpackSignals
  generalize (∅ : SignalValues) = start
  induction signals generalizing start with
  | nil => rfl
  | cons s signals ih =>
    have hraw : m.rawOf payload s = .ok (Payload.gather payload s.run) :=
      rawOf_eq_ok.mpr ⟨hfit s List.mem_cons_self, rfl⟩
    rw [List.foldlM_cons, hraw]
    exact ih (fun t ht => hfit t (List.mem_cons_of_mem _ ht)) _

theorem mem_valuesOver {name : String} {start : SignalValues} :
    name ∈ valuesOver payload start signals ↔ name ∈ start ∨ ∃ s ∈ signals, s.name = name := by
  unfold valuesOver
  induction signals generalizing start with
  | nil => simp
  | cons s signals ih =>
    rw [List.foldl_cons, ih, Std.TreeMap.mem_insert, Std.compare_eq_iff_eq]
    simp only [List.mem_cons, exists_eq_or_imp]
    rw [or_assoc, or_left_comm]

theorem mem_valuesOver_empty {name : String} :
    name ∈ valuesOver payload ∅ signals ↔ ∃ s ∈ signals, s.name = name := by
  rw [mem_valuesOver]
  exact or_iff_right Std.TreeMap.not_mem_emptyc

/-! ### What packing and unpacking see -/

/-- An unshared multiplexer is read with the value that it was packed with. -/
theorem multiplexerIn_packed {multiplexer : Option Nat} (hmux : m.multiplexerRaw values = .ok multiplexer)
    (hpack : m.packSignals values signals = .ok payload)
    (hunshared : ∀ s, m.multiplexer.bind m.signal? = some s → Unshared signals s) :
    m.multiplexerIn (Payload.ofBytes (Payload.toBytes m.size payload)) = .ok multiplexer := by
  rcases multiplexerRaw_inv hmux with ⟨hnone, rfl⟩ | ⟨s, raw, hs, hraw, rfl⟩
  · exact multiplexerIn_of_none (by rw [hnone, Option.bind_none])
  · exact (multiplexerIn_eq_ok hs).mpr ⟨raw, (hunshared s hs).rawOf hpack hraw, rfl⟩

theorem decode_eq_ok {bytes : List UInt8} {decoded : SignalValues} : m.decode bytes = .ok decoded ↔
    m.size ≤ bytes.length ∧ ∃ multiplexer, m.multiplexerIn (Payload.ofBytes bytes) = .ok multiplexer ∧
      m.unpackSignals (Payload.ofBytes bytes) (m.active multiplexer) = .ok decoded := by
  unfold decode
  split
  case isTrue hshort => exact ⟨nofun, fun h => absurd h.1 (Nat.not_le.mpr hshort)⟩
  case isFalse hlong =>
    constructor
    · intro h
      obtain ⟨multiplexer, hmux, h⟩ := bind_eq_ok.mp h
      exact ⟨Nat.not_lt.mp hlong, multiplexer, hmux, h⟩
    · rintro ⟨-, multiplexer, hmux, h⟩
      exact bind_eq_ok.mpr ⟨multiplexer, hmux, h⟩

end Message

namespace Database
variable {d : Database} {frame : Nat} {m : Message}

theorem message_of_message? (hm : d.message? frame = some m) : d.message frame = .ok m := by
  unfold message
  rw [hm]

theorem encode_of_message? (hm : d.message? frame = some m) (values : SignalValues) :
    d.encode frame values = m.encode values := by
  unfold encode
  rw [message_of_message? hm]
  rfl

theorem decode_of_message? (hm : d.message? frame = some m) (bytes : List UInt8) :
    d.decode frame bytes = m.decode bytes := by
  unfold decode
  rw [message_of_message? hm]
  rfl

/-- The bytes of a frame give back what was packed into them: the bits of every unshared signal, and
    if the multiplexer is one of these, the names of the signals that took part. -/
theorem decode_encode {values : SignalValues} {bytes : List UInt8} (hm : d.message? frame = some m)
    (h : d.encode frame values = .ok bytes) :
    bytes.length = m.size ∧ ∃ multiplexer, m.multiplexerRaw values = .ok multiplexer ∧
      (∀ s, Message.Unshared (m.active multiplexer) s → ∃ v raw, values[s.name]? = some v ∧
        s.toRaw v = .ok raw ∧ m.rawOf (Payload.ofBytes bytes) s = .ok raw) ∧
      ((∀ s, m.multiplexer.bind m.signal? = some s → Message.Unshared (m.active multiplexer) s) →
        m.multiplexerIn (Payload.ofBytes bytes) = .ok multiplexer ∧
        ∃ decoded, d.decode frame bytes = .ok decoded ∧
          ∀ name, name ∈ decoded ↔ ∃ s ∈ m.active multiplexer, s.name = name) := by
  rw [encode_of_message? hm] at h
  obtain ⟨multiplexer, payload, hmux, hpack, rfl⟩ := Message.encode_eq_ok.mp h
  refine ⟨Payload.length_toBytes, multiplexer, hmux, fun s hs => ?_, fun hunshared => ?_⟩
  · obtain ⟨raw, v, hv, hraw⟩ := (Message.packSignals_inv hpack hs.mem).1
    exact ⟨v, raw, hv, hraw, hs.rawOf hpack ⟨v, hv, hraw⟩⟩
  · have hfit : ∀ s ∈ m.active multiplexer, ∀ p ∈ s.run, p < 8 * m.size := fun s hs =>
      (Message.packSignals_inv hpack hs).2
    have hin := Message.multiplexerIn_packed hmux hpack hunshared
    have hread := Message.unpackSignals_of_fit (Payload.ofBytes (Payload.toBytes m.size payload)) hfit
    have hdecode := (decode_of_message? hm _).trans (Message.decode_eq_ok.mpr
      ⟨Nat.le_of_eq Payload.length_toBytes.symm, multiplexer, hin, hread⟩)
    exact ⟨hin, _, hdecode, fun name => Message.mem_valuesOver_empty⟩

/-- A message with a multiplexer that selects one of two signals, which lie over each other: the first
    is little-endian, the second big-endian and signed. -/
def multiplexedMessage : Message :=
  let s (name : String) (start length : Nat) (selector : Option Nat) : Signal :=
    { name, start, length, order := .little, signed := false, factor := 1, offset := 0, least := 0, greatest := 0,
      unit := none, selector }
  { frame := 512, extended := false, name := "MultiplexedMsg", size := 4, sender := none
    signals := [s "Mode" 0 8 none, s "SignalA" 8 16 (some 0),
      { s "SignalB" 15 12 (some 1) with order := .big, signed := true, factor := 0.5 }]
    multiplexer := some "Mode" }

theorem decode_encode_multiplexed :
    let d := empty.add multiplexedMessage
    let values : SignalValues := Std.TreeMap.ofList [("Mode", Scalar.integer 1), ("SignalB", Scalar.double (-0.5))]
    d.message? 512 = some multiplexedMessage ∧ d.encode 512 values = .ok [1, 255, 240, 0] ∧
      ∃ decoded, d.decode 512 [1, 255, 240, 0] = .ok decoded ∧ "SignalB" ∈ decoded ∧ "SignalA" ∉ decoded := by
  intro d values
  have hm : d.message? 512 = some multiplexedMessage := rfl
  have h : d.encode 512 values = .ok [1, 255, 240, 0] := rfl
  obtain ⟨-, multiplexer, hmux, -, hread⟩ := decode_encode hm h
  obtain rfl : some 1 = multiplexer := Except.ok.inj hmux
  have hmode : ∀ s, multiplexedMessage.multiplexer.bind multiplexedMessage.signal? = some s →
      Message.Unshared (multiplexedMessage.active (some 1)) s := by
    rintro _ ⟨⟩
    exact ⟨[], multiplexedMessage.signals.drop 2, rfl, by decide⟩
  obtain ⟨-, decoded, hdecode, hnames⟩ := hread hmode
  refine ⟨hm, h, decoded, hdecode, (hnames _).mpr ?_, fun hA => ?_⟩
  · exact ⟨_, List.mem_cons_of_mem _ List.mem_cons_self, rfl⟩
  · obtain ⟨s, hs, hname⟩ := (hnames _).mp hA
    revert s
    decide

end Database
end SignalBridge
