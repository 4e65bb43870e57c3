import SignalBridge.Bus.BitRun

/-! Runs of bits as intervals. Numbered in the order in which a bus transmits them, the highest bit of
    each byte first, the positions of a big-endian signal follow each other without a gap, as those of
    a little-endian signal do in plain numbering. Hence no run meets a bit twice, and a run lies in the
    frame as soon as its last bit does. -/

namespace SignalBridge

/-- The number of a position in the order of transmission. -/
def networkNumber (p : Nat) : Nat :=
  8 * (p / 8) + (7 - p % 8)

theorem networkNumber_networkNumber (p : Nat) : networkNumber (networkNumber p) = p := by
  unfold networkNumber
  omega

theorem networkNumber_inj {p q : Nat} : networkNumber p = networkNumber q ↔ p = q :=
  ⟨fun h => networkNumber_networkNumber p ▸ networkNumber_networkNumber q ▸ congrArg networkNumber h, congrArg networkNumber⟩

/-- Numbering the bits of a byte from the other end keeps them in their byte. -/
theorem networkNumber_lt {p size : Nat} : networkNumber p < 8 * size ↔ p < 8 * size := by
  unfold networkNumber
  omega

theorem networkNumber_downward (p : Nat) : networkNumber (downward p) = networkNumber p + 1 := by
  unfold networkNumber downward
  split <;> omega

@[simp] theorem length_downwardRun : ∀ {p n : Nat}, (downwardRun p n).length = n
  | _, 0 => rfl
  | p, n + 1 => by simp [downwardRun, length_downwardRun]

/-- On the way down the numbers grow one by one. -/
theorem map_networkNumber_downwardRun : ∀ {p n : Nat},
    (downwardRun p n).map networkNumber = List.range' (networkNumber p) n
  | _, 0 => rfl
  | p, n + 1 => by
    rw [downwardRun, List.map_cons, map_networkNumber_downwardRun, networkNumber_downward, List.range'_succ]

theorem nodup_downwardRun {p n : Nat} : (downwardRun p n).Nodup := by
  have h : ((downwardRun p n).map networkNumber).Nodup := map_networkNumber_downwardRun ▸ List.nodup_range'
  exact List.Pairwise.of_map networkNumber (fun _ _ hne heq => hne (congrArg networkNumber heq)) h

theorem getElem?_downwardRun {p q n i : Nat} (hi : i < n) :
    (downwardRun p n)[i]? = some q ↔ networkNumber q = networkNumber p + i := by
  have hmap : (downwardRun p n)[i]?.map networkNumber = some (networkNumber p + i) := by
    rw [← List.getElem?_map, map_networkNumber_downwardRun, List.getElem?_range' hi, Nat.one_mul]
  obtain ⟨r, hr, hnumber⟩ := Option.map_eq_some_iff.mp hmap
  rw [hr, ← hnumber, networkNumber_inj, Option.some_inj, eq_comm]

namespace Signal
variable {s : Signal}

@[simp] theorem length_run : s.run.length = s.length := by
  unfold run
  split <;> simp

theorem nodup_run : s.run.Nodup := by
  unfold run
  split
  · exact List.nodup_range'
  · exact List.nodup_iff_pairwise_ne.mpr (List.pairwise_reverse.mpr (nodup_downwardRun.imp Ne.symm))

theorem positions_eq_ok {size : Nat} {positions : List Nat} :
    s.positions size = .ok positions ↔ (∀ p ∈ s.run, p < 8 * size) ∧ s.run = positions := by
  have hall : s.run.all (· < 8 * size) = true ↔ ∀ p ∈ s.run, p < 8 * size := by simp
  unfold Signal.positions
  split
  case isTrue h => exact ⟨fun heq => ⟨hall.mp h, Except.ok.inj heq⟩, fun ⟨_, heq⟩ => congrArg Except.ok heq⟩
  case isFalse h => exact ⟨nofun, fun ⟨hlt, _⟩ => absurd (hall.mpr hlt) h⟩

theorem positions_eq_error {size : Nat} {f : Fault} :
    s.positions size = .error f ↔ (∃ p ∈ s.run, 8 * size ≤ p) ∧ f = .outsideFrame s.name size := by
  have hall : s.run.all (· < 8 * size) = true ↔ ¬∃ p ∈ s.run, 8 * size ≤ p := by simp
  unfold Signal.positions
  split
  case isTrue h => exact ⟨nofun, fun ⟨hout, _⟩ => absurd hout (hall.mp h)⟩
  case isFalse h =>
    refine ⟨fun heq => ⟨Decidable.not_not.mp (mt hall.mpr h), (Except.error.inj heq).symm⟩, fun ⟨_, heq⟩ => congrArg Except.error heq.symm⟩

/-- The number of the last bit of a signal: in plain numbering, or in the order of transmission. -/
def lastBit (s : Signal) : Nat :=
  match s.order with
  | .little => s.start + s.length - 1
  | .big => networkNumber s.start + s.length - 1

theorem forall_mem_range' {start length bound : Nat} (hlength : 1 ≤ length) :
    (∀ n ∈ List.range' start length, n < bound) ↔ start + length - 1 < bound := by
  simp only [List.mem_range'_1]
  constructor
  · intro h
    exact h _ (by omega)
  · intro hlast n hn
    omega

/-- Of the bits of a signal the last one leaves the frame first. -/
theorem run_fits_iff {size : Nat} (hlength : 1 ≤ s.length) : (∀ p ∈ s.run, p < 8 * size) ↔ s.lastBit < 8 * size := by
  unfold run lastBit
  cases s.order with
  | little => exact forall_mem_range' hlength
  | big =>
    have hnumbers : (∀ p ∈ downwardRun s.start s.length, p < 8 * size) ↔
        ∀ n ∈ (downwardRun s.start s.length).map networkNumber, n < 8 * size := by
      simp [networkNumber_lt]
    simp only [List.mem_reverse]
    rw [hnumbers, map_networkNumber_downwardRun, forall_mem_range' hlength]

/-- The bits of a signal are an interval: upward from the start in plain numbering, or from the highest bit on in the
    order of transmission. A frame holds them exactly if it holds the last one, and otherwise they are refused. -/
theorem positions_of_interval (hlength : 1 ≤ s.length) :
    s.run.length = s.length ∧ s.run.Nodup ∧
      (s.order = .little → ∀ i < s.length, s.run[i]? = some (s.start + i)) ∧
      (s.order = .big → ∀ i < s.length, ∀ p,
        s.run.reverse[i]? = some p ↔ networkNumber p = networkNumber s.start + i) ∧
      ∀ size, ((∀ p ∈ s.run, p < 8 * size) ↔ s.lastBit < 8 * size) ∧
        (∀ positions, s.positions size = .ok positions ↔ s.lastBit < 8 * size ∧ positions = s.run) ∧
        ∀ f, s.positions size = .error f ↔ 8 * size ≤ s.lastBit ∧ f = .outsideFrame s.name size := by
  refine ⟨length_run, nodup_run, fun horder i hi => ?_, fun horder i hi p => ?_, fun size => ⟨run_fits_iff hlength, ?_, ?_⟩⟩
  · rw [run, horder]
    simp [hi]
  · rw [run, horder]
    simp only [List.reverse_reverse]
    exact getElem?_downwardRun hi
  · intro positions
    rw [positions_eq_ok, run_fits_iff hlength, eq_comm (a := positions)]
  · intro f
    have hout : (∃ p ∈ s.run, 8 * size ≤ p) ↔ 8 * size ≤ s.lastBit := by
      rw [← Nat.not_lt, ← run_fits_iff hlength]
      simp
    rw [positions_eq_error, hout]

/-- Twelve bits from the highest bit of the fourth byte on: this byte and the upper half of the next one. -/
theorem positions_of_interval_torque :
    let s : Signal :=
      { name := "Torque", start := 31, length := 12, order := .big, signed := true, factor := 0.5, offset := 0
        least := -1024, greatest := 1023.5, unit := some "Nm", selector := none }
    s.run = [36, 37, 38, 39, 24, 25, 26, 27, 28, 29, 30, 31] ∧ s.lastBit = 35 ∧ s.positions 5 = .ok s.run ∧
      s.positions 4 = .error (.outsideFrame "Torque" 4) := by
  intro s
  obtain ⟨-, -, -, -, hframes⟩ := positions_of_interval (s := s) (by decide)
  exact ⟨by decide, by decide, ((hframes 5).2.1 _).mpr ⟨by decide, rfl⟩, ((hframes 4).2.2 _).mpr ⟨by decide, rfl⟩⟩

end Signal
end SignalBridge
