import SignalBridge.Outcome
import SignalBridge.Proofs.DispatchHistory
import SignalBridge.Provider

/-! The effect of one batch. The table takes in all target values first; then every touched frame with
    defaults that can be built is offered, in ascending order and once. What is sent under an identifier
    depends on no other frame. -/

namespace SignalBridge
namespace Provider
variable {p p' : Provider} {b : Batch} {id : Nat} {ids : List Nat} {f : Frame}

theorem mem_targets {path : String} {v : Scalar} :
    (path, v) ∈ targets b ↔ ∃ u ∈ b, u.field = .target ∧ u.path = path ∧ u.value = some v := by
  rw [targets, List.mem_filterMap]
  constructor
  · rintro ⟨u, hu, h⟩
    split at h
    · next hfield hvalue =>
      obtain ⟨rfl, rfl⟩ := Prod.mk.inj (Option.some.inj h)
      exact ⟨u, hu, hfield, rfl, hvalue⟩
    · cases h
  · rintro ⟨u, hu, hfield, rfl, hvalue⟩
    exact ⟨u, hu, by rw [hfield, hvalue]⟩

/-! ### Building and offering -/

theorem buildFrame_eq_ok : p.buildFrame id = .ok f ↔ f.id = id ∧ ∃ values,
    p.table.frameValues p.defaults id = .ok values ∧ p.database.encode id values = .ok f.data ∧
      p.database.isExtended id = f.extended := by
  rw [buildFrame, bind_eq_ok]
  constructor
  · rintro ⟨values, hvalues, h⟩
    obtain ⟨data, hdata, h⟩ := bind_eq_ok.mp h
    obtain rfl := Except.ok.inj h
    exact ⟨rfl, values, hvalues, hdata, rfl⟩
  · rintro ⟨rfl, values, hvalues, hdata, hext⟩
    exact ⟨values, hvalues, bind_eq_ok.mpr ⟨f.data, hdata, by rw [hext]; rfl⟩⟩

theorem offer?_eq_some : p.offer? id = some f ↔ p.defaults.supports id = true ∧ p.buildFrame id = .ok f := by
  unfold offer?
  by_cases hsup : p.defaults.supports id = true
  · rw [if_pos hsup]
    cases p.buildFrame id <;> simp [Except.toOption, hsup]
  · simp [hsup]

theorem id_of_offer? (h : p.offer? id = some f) : f.id = id :=
  (buildFrame_eq_ok.mp (offer?_eq_some.mp h).2).1

theorem mem_offers : f ∈ p.offers ids ↔ f.id ∈ ids ∧ p.defaults.supports f.id = true ∧ p.buildFrame f.id = .ok f := by
  rw [offers, List.mem_filterMap]
  constructor
  · rintro ⟨id, hid, hoffer⟩
    obtain rfl := id_of_offer? hoffer
    exact ⟨hid, offer?_eq_some.mp hoffer⟩
  · rintro ⟨hid, hoffer⟩
    exact ⟨f.id, hid, offer?_eq_some.mpr hoffer⟩

theorem map_id_offers_sublist : ((p.offers ids).map (·.id)).Sublist ids := by
  unfold offers
  induction ids with
  | nil => exact .slnil
  | cons id ids ih =>
    cases hoffer : p.offer? id with
    | none =>
      rw [List.filterMap_cons_none hoffer]
      exact ih.cons id
    | some f =>
      rw [List.filterMap_cons_some hoffer, List.map_cons, id_of_offer? hoffer]
      exact ih.cons_cons id

/-- The offers under one identifier are the offers for that identifier. -/
theorem filter_id_offers : (p.offers ids).filter (·.id == id) = p.offers (ids.filter (· == id)) := by
  rw [offers, offers, List.filter_filterMap, List.filterMap_filter]
  congr 1
  funext id'
  cases hoffer : p.offer? id' with
  | none => simp
  | some f => rw [Option.filter_some, id_of_offer? hoffer]

theorem supports_eq (d : Defaults) (id : Nat) : d.supports id = (d.values? id).isSome :=
  Std.TreeMap.contains_eq_isSome_getElem?

/-- Building a frame reads the table, the defaults of the frame and its message. -/
theorem buildFrame_congr (htable : p'.table = p.table) (hdef : p'.defaults.values? id = p.defaults.values? id)
    (hmsg : p'.database.message? id = p.database.message? id) : p'.buildFrame id = p.buildFrame id := by
  simp only [buildFrame, Table.frameValues, Database.encode, Database.message, Database.isExtended, htable, hdef,
    hmsg]

theorem offer?_congr (htable : p'.table = p.table) (hdef : p'.defaults.values? id = p.defaults.values? id)
    (hmsg : p'.database.message? id = p.database.message? id) : p'.offer? id = p.offer? id := by
  have hsup : p'.defaults.supports id = p.defaults.supports id := by rw [supports_eq, supports_eq, hdef]
  rw [offer?, offer?, buildFrame_congr htable hdef hmsg, hsup]

/-! ### One batch -/

/-- The frames that a batch touches, ascending. -/
def touched (p : Provider) (b : Batch) : List Nat :=
  (p.table.applyUpdates (targets b)).2.toList

/-- The provider after a batch. -/
def after (p : Provider) (b : Batch) : Provider :=
  { p with table := (p.table.applyUpdates (targets b)).1 }

theorem handle_eq : p.handle b = (p.after b, (p.after b).offers (p.touched b)) := rfl

/-- The frames of a batch that are accepted. -/
def sent (p : Provider) (accepts : Frame → Bool) (b : Batch) : List Frame :=
  (p.handle b).2.filter accepts

theorem touched_pairwise : (p.touched b).Pairwise (· < ·) :=
  Std.TreeSet.ordered_toList.imp Nat.compare_eq_lt.mp

theorem mem_touched : id ∈ p.touched b ↔
    ∃ u ∈ b, u.field = .target ∧ u.value.isSome ∧ ∃ e ∈ p.table.entriesOfPath u.path, e.frame = id := by
  rw [touched, Std.TreeSet.mem_toList, Table.mem_applyUpdates_snd]
  constructor
  · rintro ⟨⟨path, v⟩, hx, hid⟩
    obtain ⟨u, hu, hfield, rfl, hvalue⟩ := mem_targets.mp hx
    exact ⟨u, hu, hfield, by simp [hvalue], List.mem_map.mp hid⟩
  · rintro ⟨u, hu, hfield, hvalue, he⟩
    obtain ⟨v, hvalue⟩ := Option.isSome_iff_exists.mp hvalue
    exact ⟨(u.path, v), mem_targets.mpr ⟨u, hu, hfield, rfl, hvalue⟩, List.mem_map.mpr he⟩

theorem offered_pairwise : (p.handle b).2.Pairwise (·.id < ·.id) :=
  List.Pairwise.of_map _ (fun _ _ h => h) (touched_pairwise.sublist map_id_offers_sublist)

/-- The frames that are sent under an identifier depend on what belongs to it: its defaults, its message
    and whether its frame is accepted. -/
theorem sent_congr {accepts accepts' : Frame → Bool} (htable : p'.table = p.table)
    (hdef : p'.defaults.values? id = p.defaults.values? id) (hmsg : p'.database.message? id = p.database.message? id)
    (hacc : ∀ f, f.id = id → accepts' f = accepts f) :
    (p'.sent accepts' b).filter (·.id == id) = (p.sent accepts b).filter (·.id == id) := by
  have htouched : p'.touched b = p.touched b := by
    unfold touched
    rw [htable]
  have hafter : (p'.after b).table = (p.after b).table := by simp only [after, htable]
  have hoffers : (p'.after b).offers ((p.touched b).filter (· == id)) =
      (p.after b).offers ((p.touched b).filter (· == id)) := by
    apply List.filterMap_congr
    intro id' hid'
    obtain rfl : id' = id := by simpa using (List.mem_filter.mp hid').2
    exact offer?_congr hafter hdef hmsg
  rw [sent, sent, List.filter_comm, List.filter_comm _ accepts, handle_eq, handle_eq, filter_id_offers,
    filter_id_offers, htouched, hoffers]
  apply List.filter_congr
  intro f hf
  obtain ⟨hid, -⟩ := mem_offers.mp hf
  exact hacc f (by simpa using (List.mem_filter.mp hid).2)

/-- A batch is taken in as a whole: its target values go into the table, whatever becomes of the frames.
    The frames offered are, ascending, those of the updated paths that have defaults and can be built from
    the new table. Those accepted are sent and counted, and no frame bears on another. -/
theorem take_batch (r : Run) (b : Batch) (accepts : Frame → Bool) (rest : List Delivery) :
    let p := r.provider
    let table := (p.table.applyUpdates (targets b)).1
    let offered := (p.handle b).2
    let done := r.take accepts (.ok b) rest
    done.provider = { p with table } ∧ offered.Pairwise (·.id < ·.id) ∧
      (∀ f, f ∈ offered ↔
        (∃ u ∈ b, u.field = .target ∧ u.value.isSome ∧ ∃ e ∈ p.table.entriesOfPath u.path, e.frame = f.id) ∧
          p.defaults.supports f.id = true ∧ ∃ values, table.frameValues p.defaults f.id = .ok values ∧
            p.database.encode f.id values = .ok f.data ∧ p.database.isExtended f.id = f.extended) ∧
      done.frames = r.frames ++ p.sent accepts b ∧ done.stats.sent = r.stats.sent + (p.sent accepts b).length ∧
      ∀ (p' : Provider) (accepts' : Frame → Bool) (id : Nat), p'.table = p.table →
        p'.defaults.values? id = p.defaults.values? id → p'.database.message? id = p.database.message? id →
        (∀ f, f.id = id → accepts' f = accepts f) →
          (p'.sent accepts' b).filter (·.id == id) = (p.sent accepts b).filter (·.id == id) := by
  intro p table offered done
  refine ⟨rfl, offered_pairwise, fun f => ?_, rfl, rfl, fun _ _ _ htable hdef hmsg hacc =>
    sent_congr htable hdef hmsg hacc⟩
  refine (mem_offers (p := p.after b)).trans (and_congr mem_touched (and_congr_right fun _ => ?_))
  exact buildFrame_eq_ok.trans (and_iff_right rfl)

/-- The signal that locks the door, without a value yet. -/
def lockEntry : Entry :=
  { signal := "Locked", frame := 258, transform := none, last := none }

/-- A provider of one frame with one bit, which locks a door. -/
def doorLock : Provider where
  database := Database.empty.add
    { frame := 258, extended := false, name := "DoorLock", size := 1, sender := none, multiplexer := none
      signals := [{ name := "Locked", start := 0, length := 1, order := .little, signed := false, factor := 1,
                    offset := 0, least := 0, greatest := 0, unit := none, selector := none }] }
  table := Table.empty.insert "Vehicle.Cabin.Door.Row1.DriverSide.IsLocked" lockEntry
  defaults := Defaults.empty.insert 258 (Std.TreeMap.ofList [("Locked", Scalar.integer 0)])

/-- The current value and the cleared field are passed over, so the door is locked by the target value alone. -/
theorem take_batch_doorLock :
    let path := "Vehicle.Cabin.Door.Row1.DriverSide.IsLocked"
    let b : Batch := [⟨path, .target, some (.integer 1)⟩, ⟨path, .value, some (.integer 0)⟩, ⟨path, .target, none⟩]
    let done := (Run.start doorLock []).take (fun _ => true) (.ok b) []
    ((done.provider.table.entriesOfPath path).map fun e => e.last.map (·.agrees (.integer 1))) = [some true] ∧
      done.frames = [⟨258, false, [1]⟩] ∧ done.stats.sent = 1 := by
  intro path b done
  obtain ⟨hprovider, -, -, hframes, hcount, -⟩ := take_batch (.start doorLock []) b (fun _ => true) []
  have hsent : doorLock.sent (fun _ => true) b = [⟨258, false, [1]⟩] := by decide +kernel
  refine ⟨?_, hframes.trans hsent, hcount.trans (congrArg (0 + List.length ·) hsent)⟩
  rw [hprovider]
  decide +kernel

end Provider
end SignalBridge
