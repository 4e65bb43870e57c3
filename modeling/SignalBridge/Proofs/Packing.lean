import SignalBridge.Bus.Codec
import SignalBridge.Outcome
import SignalBridge.Proofs.BitRun
import SignalBridge.Proofs.Payload

/-! What packing writes, bit by bit. A payload that values are packed into holds a one exactly where
    some packed signal puts a one of its own bits, so a signal that shares no position with another
    packed one is read back as it was written. -/

namespace SignalBridge

/-! ### The bits that values give to a signal -/

/-- The values give a signal the bits `raw`. -/
def Signal.RawFrom (s : Signal) (values : SignalValues) (raw : Nat) : Prop :=
  ∃ v, values[s.name]? = some v ∧ s.toRaw v = .ok raw

namespace Signal
variable {s : Signal} {values : SignalValues} {raw raw' : Nat}

/-- The bits of a signal fit its length. -/
theorem lt_of_toRaw {v : Scalar} (h : s.toRaw v = .ok raw) : raw < bit s.length := by
  have hpos := bit_pos s.length
  unfold toRaw at h
  split at h
  next => cases h
  next =>
    dsimp only at h
    split at h
    next i _ =>
      split at h
      · obtain rfl := Except.ok.inj h
        have hlt := Int.emod_lt_of_pos (clamp s.signed i) (Int.natCast_pos.mpr hpos)
        omega
      · cases h
    next => cases h

theorem RawFrom.lt (h : s.RawFrom values raw) : raw < bit s.length :=
  lt_of_toRaw h.choose_spec.2

theorem RawFrom.unique (h : s.RawFrom values raw) (h' : s.RawFrom values raw') : raw = raw' := by
  obtain ⟨v, hv, hraw⟩ := h
  obtain ⟨v', hv', hraw'⟩ := h'
  rw [hv] at hv'
  obtain rfl := Option.some.inj hv'
  rw [hraw] at hraw'
  exact Except.ok.inj hraw'

end Signal

namespace Message
variable {m : Message} {values : SignalValues} {signals : List Signal} {payload : Nat}

/-! ### Packing -/

theorem packSignal_eq_ok {s : Signal} : m.packSignal values s = .ok payload ↔
    ∃ raw, s.RawFrom values raw ∧ (∀ p ∈ s.run, p < 8 * m.size) ∧ payload = Payload.scatter raw s.run := by
  unfold packSignal
  cases hv : values[s.name]? with
  | none => exact ⟨nofun, fun ⟨_, ⟨_, hv', _⟩, _⟩ => by simp [hv] at hv'⟩
  | some v =>
    simp only [bind_eq_ok, Signal.positions_eq_ok]
    constructor
    · rintro ⟨raw, hraw, _, ⟨hfit, rfl⟩, h⟩
      exact ⟨raw, ⟨v, hv, hraw⟩, hfit, (Except.ok.inj h).symm⟩
    · rintro ⟨raw, ⟨v', hv', hraw⟩, hfit, rfl⟩
      obtain rfl := Option.some.inj (hv.symm.trans hv')
      exact ⟨raw, hraw, _, ⟨hfit, rfl⟩, rfl⟩

theorem packSignals_cons_eq_ok {s : Signal} : m.packSignals values (s :: signals) = .ok payload ↔
    ∃ first rest, m.packSignal values s = .ok first ∧ m.packSignals values signals = .ok rest ∧
      payload = first ||| rest := by
  rw [packSignals, bind_eq_ok]
  constructor
  · rintro ⟨first, hfirst, h⟩
    obtain ⟨rest, hrest, h⟩ := bind_eq_ok.mp h
    exact ⟨first, rest, hfirst, hrest, (Except.ok.inj h).symm⟩
  · rintro ⟨first, rest, hfirst, hrest, rfl⟩
    exact ⟨first, hfirst, bind_eq_ok.mpr ⟨rest, hrest, rfl⟩⟩

/-- Every packed signal has its bits from the values and lies inside the frame. -/
theorem packSignals_inv (h : m.packSignals values signals = .ok payload) {s : Signal} (hs : s ∈ signals) :
    (∃ raw, s.RawFrom values raw) ∧ ∀ p ∈ s.run, p < 8 * m.size := by
  induction signals generalizing payload with
  | nil => cases hs
  | cons t signals ih =>
    obtain ⟨first, rest, hfirst, hrest, -⟩ := packSignals_cons_eq_ok.mp h
    rcases List.mem_cons.mp hs with rfl | hs
    · obtain ⟨raw, hraw, hfit, -⟩ := packSignal_eq_ok.mp hfirst
      exact ⟨⟨raw, hraw⟩, hfit⟩
    · exact ih hrest hs

/-- The ones of a payload are the ones of the packed signals. -/
theorem testBit_packSignals (h : m.packSignals values signals = .ok payload) {p : Nat} :
    payload.testBit p = true ↔
      ∃ s ∈ signals, ∃ raw i, s.RawFrom values raw ∧ s.run[i]? = some p ∧ raw.testBit i = true := by
  induction signals generalizing payload with
  | nil =>
    obtain rfl := Except.ok.inj h
    simp
  | cons t signals ih =>
    obtain ⟨first, rest, hfirst, hrest, rfl⟩ := packSignals_cons_eq_ok.mp h
    obtain ⟨raw, hraw, -, rfl⟩ := packSignal_eq_ok.mp hfirst
    rw [Nat.testBit_or, Bool.or_eq_true, Payload.testBit_scatter, ih hrest]
    constructor
    · rintro (⟨i, hi, hbit⟩ | ⟨s, hs, h⟩)
      · exact ⟨t, List.mem_cons_self, raw, i, hraw, hi, hbit⟩
      · exact ⟨s, List.mem_cons_of_mem _ hs, h⟩
    · rintro ⟨s, hs, raw', i, hraw', hi, hbit⟩
      rcases List.mem_cons.mp hs with rfl | hs
      · obtain rfl := hraw.unique hraw'
        exact Or.inl ⟨i, hi, hbit⟩
      · exact Or.inr ⟨s, hs, raw', i, hraw', hi, hbit⟩

theorem encode_eq_ok {bytes : List UInt8} : m.encode values = .ok bytes ↔
    ∃ multiplexer payload, m.multiplexerRaw values = .ok multiplexer ∧
      m.packSignals values (m.active multiplexer) = .ok payload ∧ bytes = Payload.toBytes m.size payload := by
  rw [encode, bind_eq_ok]
  constructor
  · rintro ⟨multiplexer, hmux, h⟩
    obtain ⟨payload, hpack, h⟩ := bind_eq_ok.mp h
    exact ⟨multiplexer, payload, hmux, hpack, (Except.ok.inj h).symm⟩
  · rintro ⟨multiplexer, payload, hmux, hpack, rfl⟩
    exact ⟨multiplexer, hmux, bind_eq_ok.mpr ⟨payload, hpack, rfl⟩⟩

theorem exists_signal? {name : String} (hname : name ∈ m.signalNames) :
    ∃ s, m.signal? name = some s ∧ s.name = name := by
  obtain ⟨s, hs, rfl⟩ := List.mem_map.mp hname
  obtain ⟨mux, hmux⟩ : ∃ mux, m.signal? s.name = some mux :=
    Option.isSome_iff_exists.mp (List.find?_isSome.mpr ⟨s, hs, beq_self_eq_true s.name⟩)
  exact ⟨mux, hmux, by simpa using List.find?_some hmux⟩

/-- The multiplexer of a message is one of its signals, and has its value from the values. -/
theorem multiplexerRaw_inv {multiplexer : Option Nat} (h : m.multiplexerRaw values = .ok multiplexer) :
    (m.multiplexer = none ∧ multiplexer = none) ∨
      ∃ s raw, m.multiplexer.bind m.signal? = some s ∧ s.RawFrom values raw ∧ multiplexer = some raw := by
  unfold multiplexerRaw at h
  split at h
  next hnone => exact Or.inl ⟨hnone, (Except.ok.inj h).symm⟩
  next name hname =>
    split at h
    next s v hs hv =>
      obtain ⟨raw, hraw, rfl⟩ := map_eq_ok.mp h
      have hsname : s.name = name := by simpa using List.find?_some hs
      exact Or.inr ⟨s, raw, by rw [hname]; exact hs, ⟨v, hsname ▸ hv, hraw⟩, rfl⟩
    next => cases h

theorem multiplexerRaw_of_none (hnone : m.multiplexer = none) : m.multiplexerRaw values = .ok none := by
  rw [multiplexerRaw, hnone]

theorem multiplexerRaw_eq_ok {name : String} {mux : Signal} {multiplexer : Option Nat}
    (hname : m.multiplexer = some name) (hmux : m.signal? name = some mux) :
    m.multiplexerRaw values = .ok multiplexer ↔ ∃ raw, mux.RawFrom values raw ∧ multiplexer = some raw := by
  constructor
  · intro h
    rcases multiplexerRaw_inv h with ⟨hnone, -⟩ | ⟨s, raw, hs, hraw, rfl⟩
    · cases hname.symm.trans hnone
    · rw [hname, Option.bind_some, hmux] at hs
      obtain rfl := Option.some.inj hs
      exact ⟨raw, hraw, rfl⟩
  · rintro ⟨raw, ⟨v, hv, hraw⟩, rfl⟩
    have hmuxname : mux.name = name := by simpa using List.find?_some hmux
    unfold multiplexerRaw
    rw [hname]
    dsimp only
    rw [hmux, ← hmuxname, hv]
    exact map_eq_ok.mpr ⟨raw, hraw, rfl⟩

/-! ### Unshared signals -/

/-- One of some signals, with no position that belongs to another of them. -/
def Unshared (signals : List Signal) (s : Signal) : Prop :=
  ∃ before after, signals = before ++ s :: after ∧ ∀ other ∈ before ++ after, ∀ p ∈ s.run, p ∉ other.run

theorem Unshared.mem {s : Signal} (h : Unshared signals s) : s ∈ signals := by
  obtain ⟨before, after, rfl, -⟩ := h
  simp

/-- At the positions of an unshared signal the payload holds the bits of that signal. -/
theorem Unshared.testBit {s : Signal} (hs : Unshared signals s) (h : m.packSignals values signals = .ok payload)
    {raw i p : Nat} (hraw : s.RawFrom values raw) (hi : s.run[i]? = some p) : payload.testBit p = raw.testBit i := by
  obtain ⟨before, after, rfl, hother⟩ := hs
  have hp : p ∈ s.run := List.mem_of_getElem? hi
  rw [Bool.eq_iff_iff, testBit_packSignals h]
  constructor
  · rintro ⟨t, ht, raw', j, hraw', hj, hbit⟩
    have hcase : t = s ∨ t ∈ before ++ after := by
      simp only [List.mem_append, List.mem_cons] at ht ⊢
      exact or_left_comm.mp ht
    rcases hcase with rfl | ht
    · -- A run holds the position once, so it is the same bit of the same number.
      obtain rfl := hraw.unique hraw'
      obtain ⟨hlt, -⟩ := List.getElem?_eq_some_iff.mp hi
      obtain rfl := (List.getElem?_inj hlt Signal.nodup_run).mp (hi.trans hj.symm)
      exact hbit
    · exact absurd (List.mem_of_getElem? hj) (hother t ht p hp)
  · intro hbit
    exact ⟨s, by simp, raw, i, hraw, hi, hbit⟩

/-- From the bytes of a packed payload an unshared signal is read as the values gave it. -/
theorem Unshared.rawOf {s : Signal} (hs : Unshared signals s) (h : m.packSignals values signals = .ok payload)
    {raw : Nat} (hraw : s.RawFrom values raw) :
    m.rawOf (Payload.ofBytes (Payload.toBytes m.size payload)) s = .ok raw := by
  have hfit := (packSignals_inv h hs.mem).2
  refine map_eq_ok.mpr ⟨s.run, Signal.positions_eq_ok.mpr ⟨hfit, rfl⟩, ?_⟩
  apply Payload.gather_eq
  · rw [Signal.length_run]
    exact hraw.lt
  · intro i p hi
    have hp : p < 8 * m.size := hfit p (List.mem_of_getElem? hi)
    rw [Payload.testBit_ofBytes_toBytes, decide_eq_true hp, Bool.true_and]
    exact hs.testBit h hraw hi

end Message
end SignalBridge
