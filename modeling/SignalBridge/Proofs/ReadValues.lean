import SignalBridge.Proofs.SelectedSignals

/-! Which values packing reads: that of the multiplexer, and those of the signals that are active under it. Two runs on
    values that agree on these have the same outcome, be it bytes or a fault. -/

namespace SignalBridge

namespace Message
variable {m : Message} {values values' : SignalValues} {name : String}

/-- Packing reads the value of a name: that of the multiplexer, or of a signal that the multiplexer leaves active. -/
def Reads (m : Message) (values : SignalValues) (name : String) : Prop :=
  m.multiplexer = some name ∨
    ∃ multiplexer, m.multiplexerRaw values = .ok multiplexer ∧ ∃ s ∈ m.active multiplexer, s.name = name

theorem encode_congr_of_reads (h : ∀ name, m.Reads values name → values'[name]? = values[name]?) :
    m.encode values' = m.encode values := by
  refine encode_congr_of_active (multiplexerRaw_congr fun name hname => h name (.inl hname)) ?_
  intro multiplexer hmultiplexer s hs
  exact h s.name (.inr ⟨multiplexer, hmultiplexer, s, hs, rfl⟩)

end Message

namespace Database
open Message

/-- Values that agree on the multiplexer and on the signals active under it are packed to the same bytes, or refused
    with the same fault. So a value under any other name, whatever it is, may be put in, replaced or taken out. -/
theorem encode_of_reads {d : Database} {frame : Nat} {m : Message} (hm : d.message? frame = some m)
    (values : SignalValues) :
    (∀ values' : SignalValues, (∀ name, m.Reads values name → values'[name]? = values[name]?) →
      d.encode frame values' = d.encode frame values) ∧
    ∀ name, ¬m.Reads values name → (∀ v, d.encode frame (values.insert name v) = d.encode frame values) ∧
      d.encode frame (values.erase name) = d.encode frame values := by
  simp only [encode_of_message? hm]
  refine ⟨fun values' => encode_congr_of_reads, fun name hname => ⟨fun v => ?_, ?_⟩⟩
  · refine encode_congr_of_reads fun read hread => ?_
    have hne : name ≠ read := fun heq => hname (heq ▸ hread)
    rw [Std.TreeMap.getElem?_insert, if_neg (mt Std.compare_eq_iff_eq.mp hne)]
  · refine encode_congr_of_reads fun read hread => ?_
    have hne : name ≠ read := fun heq => hname (heq ▸ hread)
    rw [Std.TreeMap.getElem?_erase, if_neg (mt Std.compare_eq_iff_eq.mp hne)]

/-- Under the value 1 of the multiplexer the value of `SignalA` is not read, so it may be text, and `SignalB` may have
    a value that does not fit under the value 0. -/
theorem encode_of_reads_multiplexed :
    let d := empty.add multiplexedMessage
    let first : SignalValues := Std.TreeMap.ofList [("Mode", Scalar.integer 1), ("SignalB", .double (-0.5))]
    let second : SignalValues := Std.TreeMap.ofList [("Mode", Scalar.integer 0), ("SignalA", .integer 7)]
    d.encode 512 first = .ok [1, 255, 240, 0] ∧
      d.encode 512 (first.insert "SignalA" (.text "on")) = .ok [1, 255, 240, 0] ∧
      d.encode 512 second = .ok [0, 7, 0, 0] ∧
      d.encode 512 (second.insert "SignalB" (.integer 1000000)) = .ok [0, 7, 0, 0] := by
  intro d first second
  have hm : d.message? 512 = some multiplexedMessage := rfl
  have hfirst : d.encode 512 first = .ok [1, 255, 240, 0] := rfl
  have hsecond : d.encode 512 second = .ok [0, 7, 0, 0] := rfl
  refine ⟨hfirst, ?_, hsecond, ?_⟩
  · rw [((encode_of_reads hm first).2 "SignalA" ?_).1, hfirst]
    rintro (hmultiplexer | ⟨multiplexer, hvalue, s, hs, hname⟩)
    · exact absurd hmultiplexer (by decide)
    · obtain rfl : some 1 = multiplexer := Except.ok.inj hvalue
      have hunread : ∀ s ∈ multiplexedMessage.active (some 1), s.name ≠ "SignalA" := by decide
      exact hunread s hs hname
  · rw [((encode_of_reads hm second).2 "SignalB" ?_).1, hsecond]
    rintro (hmultiplexer | ⟨multiplexer, hvalue, s, hs, hname⟩)
    · exact absurd hmultiplexer (by decide)
    · obtain rfl : some 0 = multiplexer := Except.ok.inj hvalue
      have hunread : ∀ s ∈ multiplexedMessage.active (some 0), s.name ≠ "SignalB" := by decide
      exact hunread s hs hname

end Database
end SignalBridge
