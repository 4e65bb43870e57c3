import SignalBridge.Proofs.BitReading
import SignalBridge.Proofs.DeclaredLayout

/-! The signals that a message is packed from and read into, by what was declared. A signal that the value `k` of the
    multiplexer selects is needed, packed and read under this value only. A signal that `k` selects and that is a
    multiplexer as well loses its selector when it is loaded, so it takes part under every value. -/

namespace SignalBridge

namespace Message
variable {declaration : Dbc.MessageDeclaration} {m : Message} {values values' : SignalValues} {signals : List Signal}
  {name : String} {raw : Nat} {s : Signal} {bytes : List UInt8}

/-! ### Selection -/

/-- The loaded signal of a declared one that no other value of the multiplexer selects. -/
def Used (declaration : Dbc.MessageDeclaration) (m : Message) (raw : Nat) (s : Signal) : Prop :=
  ∃ d, (d, s) ∈ declaration.signals.zip m.signals ∧ ∀ k, d.multiplexing = .selected k → k = raw

theorem isActive_of_ofDeclaration {d : Dbc.SignalDeclaration} (h : Signal.ofDeclaration d true = .ok s) :
    s.isActive (some raw) = true ↔ ∀ k, d.multiplexing = .selected k → k = raw := by
  obtain ⟨selector, hselector, -, rfl⟩ := Signal.ofDeclaration_eq_ok.mp h
  unfold Signal.selectorOf at hselector
  cases hmultiplexing : d.multiplexing with
  | selected k =>
    rw [hmultiplexing] at hselector
    obtain rfl := Except.ok.inj hselector
    rw [Signal.isActive, beq_iff_eq]
    refine ⟨fun heq _ hk => ?_, fun h => congrArg some (h k rfl).symm⟩
    exact Multiplexing.selected.inj hk ▸ (Option.some.inj heq).symm
  | none | multiplexer | selectedMultiplexer =>
    rw [hmultiplexing] at hselector
    obtain rfl := Except.ok.inj hselector
    refine ⟨fun _ k hk => ?_, fun _ => rfl⟩
    cases hk

/-- Under a value of the multiplexer just the used signals take part. -/
theorem mem_active_iff_used (h : ofDeclaration declaration = .ok m) (hname : m.multiplexer = some name) :
    s ∈ m.active (some raw) ↔ Used declaration m raw s := by
  obtain ⟨signals, hsignals, rfl⟩ := ofDeclaration_eq_ok.mp h
  have hmultiplexed : (multiplexerOf declaration).isSome = true := Option.isSome_iff_exists.mpr ⟨name, hname⟩
  rw [hmultiplexed] at hsignals
  -- Each loaded signal has its declaration at the same place.
  obtain ⟨hlength, hdeclared⟩ := List.forall₂_iff_zip.mp (forall₂_of_mapM hsignals)
  have hzip : signals = (declaration.signals.zip signals).map Prod.snd :=
    (List.map_snd_zip (Nat.le_of_eq hlength.symm)).symm
  rw [active, List.mem_filter]
  constructor
  · rintro ⟨hs, hactive⟩
    dsimp only at hs
    rw [hzip] at hs
    obtain ⟨⟨d, _⟩, hd, rfl⟩ := List.mem_map.mp hs
    exact ⟨d, hd, (isActive_of_ofDeclaration (hdeclared hd)).mp hactive⟩
  · rintro ⟨d, hd, hselected⟩
    exact ⟨(List.of_mem_zip hd).2, (isActive_of_ofDeclaration (hdeclared hd)).mpr hselected⟩

/-! ### Packing -/

/-- Packing reads nothing of the values but those of the packed signals. -/
theorem packSignals_congr (h : ∀ s ∈ signals, values'[s.name]? = values[s.name]?) :
    m.packSignals values' signals = m.packSignals values signals := by
  induction signals with
  | nil => rfl
  | cons s signals ih =>
    obtain ⟨hs, hrest⟩ := List.forall_mem_cons.mp h
    rw [packSignals, packSignals, packSignal, packSignal, hs, ih hrest]

theorem multiplexerRaw_congr (h : ∀ name, m.multiplexer = some name → values'[name]? = values[name]?) :
    m.multiplexerRaw values' = m.multiplexerRaw values := by
  unfold multiplexerRaw
  cases hname : m.multiplexer with
  | none => rfl
  | some name =>
    dsimp only
    rw [h name hname]

/-- Besides the value of the multiplexer, packing reads those of the signals that it leaves active. -/
theorem encode_congr_of_active (hmultiplexer : m.multiplexerRaw values' = m.multiplexerRaw values)
    (hactive : ∀ multiplexer, m.multiplexerRaw values = .ok multiplexer → ∀ s ∈ m.active multiplexer,
      values'[s.name]? = values[s.name]?) : m.encode values' = m.encode values := by
  rw [encode, encode, hmultiplexer]
  cases h : m.multiplexerRaw values with
  | error f => rfl
  | ok multiplexer => exact congrArg (·.map (Payload.toBytes m.size)) (packSignals_congr (hactive multiplexer h))

theorem bitOf_toBytes_packed {payload p : Nat} (h : m.packSignals values signals = .ok payload) :
    Payload.bitOf (Payload.toBytes m.size payload) p = true ↔
      ∃ s ∈ signals, ∃ bits i, s.RawFrom values bits ∧ s.run[i]? = some p ∧ bits.testBit i = true := by
  rw [← Payload.testBit_ofBytes, Payload.testBit_ofBytes_toBytes, Bool.and_eq_true, decide_eq_true_iff,
    testBit_packSignals h]
  refine and_iff_right_of_imp ?_
  rintro ⟨s, hs, -, i, -, hi, -⟩
  exact (packSignals_inv h hs).2 p (List.mem_of_getElem? hi)

section
variable {mux : Signal} (hname : m.multiplexer = some name) (hmux : m.signal? name = some mux)
include hname hmux

/-- For a value of the multiplexer, packing is packing the signals that it leaves active. -/
theorem encode_eq_ok_of_multiplexer (hraw : mux.RawFrom values raw) :
    m.encode values = .ok bytes ↔
      ∃ payload, m.packSignals values (m.active (some raw)) = .ok payload ∧ bytes = Payload.toBytes m.size payload := by
  rw [encode_eq_ok]
  constructor
  · rintro ⟨_, payload, h, hpack, hbytes⟩
    obtain ⟨raw', hraw', rfl⟩ := (multiplexerRaw_eq_ok hname hmux).mp h
    obtain rfl := hraw.unique hraw'
    exact ⟨payload, hpack, hbytes⟩
  · rintro ⟨payload, hpack, hbytes⟩
    exact ⟨_, payload, (multiplexerRaw_eq_ok hname hmux).mpr ⟨raw, hraw, rfl⟩, hpack, hbytes⟩

theorem encode_congr (hraw : mux.RawFrom values raw) (hsame : values'[name]? = values[name]?)
    (hactive : ∀ s ∈ m.active (some raw), values'[s.name]? = values[s.name]?) : m.encode values' = m.encode values := by
  have hvalue : m.multiplexerRaw values' = m.multiplexerRaw values :=
    multiplexerRaw_congr fun _ hname' => Option.some.inj (hname.symm.trans hname') ▸ hsame
  refine encode_congr_of_active hvalue fun multiplexer h => ?_
  obtain ⟨raw', hraw', rfl⟩ := (multiplexerRaw_eq_ok hname hmux).mp h
  obtain rfl := hraw.unique hraw'
  exact hactive

theorem decode_eq_ok_of_multiplexer (h : m.decode bytes = .ok values) :
    ∃ raw, m.rawOf (Payload.ofBytes bytes) mux = .ok raw ∧
      ∀ n, n ∈ values ↔ ∃ s ∈ m.active (some raw), s.name = n := by
  obtain ⟨-, multiplexer, hin, hread⟩ := decode_eq_ok.mp h
  have hs : m.multiplexer.bind m.signal? = some mux := by rw [hname, Option.bind_some, hmux]
  obtain ⟨raw, hraw, rfl⟩ := (multiplexerIn_eq_ok hs).mp hin
  obtain ⟨-, rfl⟩ := unpackSignals_eq_ok.mp hread
  exact ⟨raw, hraw, fun n => mem_valuesOver_empty⟩

end

end Message

namespace Database
open Message
variable {d : Database} {frame : Nat} {declaration : Dbc.MessageDeclaration} {m : Message} {name : String}

/-- In a message with a multiplexer that was loaded from a declaration, just the signals that its value leaves in use
    are needed, packed and read. Packing needs a value of the multiplexer, and under this value succeeds exactly if
    the used signals have values that fit and lie in the frame. The ones of the frame are then ones of used signals,
    and no other value counts. What is read has the names of the signals that the bits of the multiplexer leave in
    use. -/
theorem used_signals (hm : d.message? frame = some m) (hloaded : ofDeclaration declaration = .ok m)
    (hname : m.multiplexer = some name) : ∃ mux, m.signal? name = some mux ∧
      (∀ values bytes, d.encode frame values = .ok bytes → ∃ raw, mux.RawFrom values raw) ∧
      (∀ values raw, mux.RawFrom values raw →
        ((∃ bytes, d.encode frame values = .ok bytes) ↔ ∀ s, Used declaration m raw s →
          (∃ bits, s.RawFrom values bits) ∧ ∀ p ∈ s.run, p < 8 * m.size) ∧
        (∀ bytes, d.encode frame values = .ok bytes → ∀ p, Payload.bitOf bytes p = true ↔
          ∃ s, Used declaration m raw s ∧
            ∃ bits i, s.RawFrom values bits ∧ s.run[i]? = some p ∧ bits.testBit i = true) ∧
        ∀ values' : SignalValues, (∀ s, Used declaration m raw s → values'[s.name]? = values[s.name]?) →
          d.encode frame values' = d.encode frame values) ∧
      ∀ bytes values, d.decode frame bytes = .ok values → ∃ raw, m.rawOf (Payload.ofBytes bytes) mux = .ok raw ∧
        ∀ n, n ∈ values ↔ ∃ s, Used declaration m raw s ∧ s.name = n := by
  obtain ⟨always, halways, halwaysName, hselector⟩ := multiplexer_of_ofDeclaration hloaded hname
  obtain ⟨mux, hmux, -⟩ := exists_signal? (List.mem_map.mpr ⟨always, halways, halwaysName⟩)
  simp only [encode_of_message? hm, decode_of_message? hm, ← mem_active_iff_used hloaded hname]
  refine ⟨mux, hmux, fun values bytes h => ?_, fun values raw hraw => ⟨⟨?_, fun hfit => ?_⟩, ?_, ?_⟩, ?_⟩
  · obtain ⟨multiplexer, _, hvalue, -⟩ := encode_eq_ok.mp h
    obtain ⟨raw, hraw, -⟩ := (multiplexerRaw_eq_ok hname hmux).mp hvalue
    exact ⟨raw, hraw⟩
  · rintro ⟨bytes, h⟩ s hs
    obtain ⟨payload, hpack, -⟩ := (encode_eq_ok_of_multiplexer hname hmux hraw).mp h
    exact packSignals_inv hpack hs
  · obtain ⟨payload, hpack⟩ := exists_packSignals hfit
    exact ⟨_, (encode_eq_ok_of_multiplexer hname hmux hraw).mpr ⟨payload, hpack, rfl⟩⟩
  · intro bytes h p
    obtain ⟨payload, hpack, rfl⟩ := (encode_eq_ok_of_multiplexer hname hmux hraw).mp h
    exact bitOf_toBytes_packed hpack
  · intro values' hactive
    have hused : always ∈ m.active (some raw) := List.mem_filter.mpr ⟨halways, by rw [Signal.isActive, hselector]⟩
    exact encode_congr hname hmux hraw (halwaysName ▸ hactive always hused) hactive
  · intro bytes values h
    exact decode_eq_ok_of_multiplexer hname hmux h

/-- A message with a multiplexer, a signal that its value 1 selects and that is a multiplexer as well, and a signal
    that its value 2 selects. -/
def nestedText : String :=
  "VERSION \"\"\nNS_ :\nBO_ 5 M: 3 X\n SG_ Mode M : 0|8@1+ (1,0) [0|0] \"\" X\n" ++
  " SG_ Sub m1M : 8|8@1+ (1,0) [0|0] \"\" X\n SG_ Low m2 : 16|8@1+ (1,0) [0|0] \"\" X\n"

def nestedDeclaration : Dbc.MessageDeclaration :=
  let s (name : String) (multiplexing : Multiplexing) (start : Nat) : Dbc.SignalDeclaration :=
    { name, multiplexing, start, length := 8, order := .little, signed := false, factor := 1, offset := 0, least := 0
      greatest := 0, unit := "" }
  { identifier := 5, name := "M", size := 3, sender := some "X"
    signals := [s "Mode" .multiplexer 0, s "Sub" (.selectedMultiplexer 1) 8, s "Low" (.selected 2) 16] }

def nestedMessage : Message :=
  let s (name : String) (start : Nat) (selector : Option Nat) : Signal :=
    { name, start, length := 8, order := .little, signed := false, factor := 1, offset := 0, least := 0, greatest := 0
      unit := none, selector }
  { frame := 5, extended := false, name := "M", size := 3, sender := some "X"
    signals := [s "Mode" 0 none, s "Sub" 8 none, s "Low" 16 (some 2)], multiplexer := some "Mode" }

theorem message?_nested : (empty.loadAll [.text nestedText]).message? 5 = some nestedMessage := by decide +kernel

/-- Under the value 0 a value of `Low` is neither needed nor packed nor read. -/
theorem used_signals_nested :
    let d := empty.loadAll [.text nestedText]
    let values : SignalValues := Std.TreeMap.ofList [("Mode", Scalar.integer 0), ("Sub", .integer 5)]
    (∃ bytes, d.encode 5 values = .ok bytes) ∧
      d.encode 5 (values.insert "Low" (.integer 7)) = d.encode 5 values ∧
      ∀ decoded, d.decode 5 [0, 5, 7] = .ok decoded → "Mode" ∈ decoded ∧ "Low" ∉ decoded := by
  intro d values
  have hloaded : ofDeclaration nestedDeclaration = .ok nestedMessage := rfl
  obtain ⟨mux, hmux, -, hpack, hread⟩ := used_signals message?_nested hloaded rfl
  obtain rfl : nestedMessage.signals[0] = mux := Option.some.inj hmux
  have hused : ∀ s, Used nestedDeclaration nestedMessage 0 s →
      s = nestedMessage.signals[0] ∨ s = nestedMessage.signals[1] := by
    rintro s ⟨_, _ | ⟨_, _ | ⟨_, _ | ⟨_, ⟨⟩⟩⟩⟩, hselected⟩
    · exact .inl rfl
    · exact .inr rfl
    · cases hselected 2 rfl
  obtain ⟨hencode, -, hsame⟩ := hpack values 0 ⟨_, rfl, rfl⟩
  refine ⟨hencode.mpr fun s hs => ?_, hsame _ fun s hs => ?_, fun decoded hdecode => ?_⟩
  · rcases hused s hs with rfl | rfl
    · exact ⟨⟨0, _, rfl, rfl⟩, by decide⟩
    · exact ⟨⟨5, _, rfl, rfl⟩, by decide⟩
  · rcases hused s hs with rfl | rfl <;> rfl
  · obtain ⟨raw, hraw, hnames⟩ := hread _ _ hdecode
    obtain rfl : 0 = raw := Except.ok.inj hraw
    refine ⟨(hnames _).mpr ⟨_, ⟨_, List.mem_cons_self, nofun⟩, rfl⟩, fun hlow => ?_⟩
    obtain ⟨s, hs, hname⟩ := (hnames _).mp hlow
    rcases hused s hs with rfl | rfl
    · exact absurd hname (by decide)
    · exact absurd hname (by decide)

/-- The value 1 selects `Sub`, but under the value 0 it is packed, needed and read all the same. -/
theorem nested_is_always_used :
    let d := empty.loadAll [.text nestedText]
    (declarations? nestedText).map (·.map (·.signals.map fun s => (s.name, s.multiplexing))) =
        some [[("Mode", .multiplexer), ("Sub", .selectedMultiplexer 1), ("Low", .selected 2)]] ∧
      d.encode 5 (.ofList [("Mode", Scalar.integer 0), ("Sub", .integer 5)]) = .ok [0, 5, 0] ∧
      d.encode 5 (.ofList [("Mode", Scalar.integer 0)]) = .error (.missingValue 5 "Sub") ∧
      ∃ values, d.decode 5 [0, 5, 0] = .ok values ∧ "Sub" ∈ values := by
  intro d
  refine ⟨by decide +kernel, ?_, ?_, ?_⟩
  · rw [encode_of_message? message?_nested]
    rfl
  · rw [encode_of_message? message?_nested]
    rfl
  · rw [decode_of_message? message?_nested]
    exact ⟨_, rfl, by decide +kernel⟩

end Database
end SignalBridge
