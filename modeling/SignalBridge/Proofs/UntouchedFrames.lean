import SignalBridge.Proofs.FrameOverlay
import SignalBridge.Proofs.UpToDate

/-! Frames that batches do not touch. The frames that a batch touches are found by the paths that it updates, and the
    values of a frame by the list of its own entries. Both indices list the same entries, so a frame keeps its values
    until a batch touches it, and the frames that have to be sent again are among those that were touched. -/

namespace SignalBridge

namespace Table
variable {t : Table} {l : List (String × Entry)} {paths : List String} {batch : List (String × Scalar)}
  {batches : List (List (String × Scalar))} {frame : Nat}

theorem Holds.frameValues_applyUpdates (h : Holds t l) (hun : frame ∉ (t.applyUpdates batch).2) (defaults : Defaults) :
    (t.applyUpdates batch).1.frameValues defaults frame = t.frameValues defaults frame := by
  rw [applyUpdates_fst]
  exact h.frameValues_updateAll (mt h.mem_touched.mpr hun) defaults

theorem Holds.frameValues_applyBatches (h : Holds t l) (hun : ∀ touched ∈ (t.applyBatches batches).2, frame ∉ touched)
    (defaults : Defaults) : (t.applyBatches batches).1.frameValues defaults frame = t.frameValues defaults frame := by
  induction batches generalizing t l with
  | nil => rfl
  | cons batch batches ih =>
    obtain ⟨hfirst, hlater⟩ := List.forall_mem_cons.mp hun
    have hnext : Holds (t.applyUpdates batch).1 (l.map (settled batch)) := applyUpdates_fst ▸ h.updateAll
    exact (ih hnext hlater).trans (h.frameValues_applyUpdates hfirst defaults)

end Table

namespace Provider
variable {p : Provider} {l : List (String × Entry)} {b : Batch} {f : Frame}

/-- A frame that comes out of a batch other than it was before is offered. -/
theorem mem_offered_of_changed (h : p.table.Holds l) (hbuild : (p.handle b).1.buildFrame f.id = .ok f)
    (hchanged : p.buildFrame f.id ≠ .ok f) : f ∈ (p.handle b).2 := by
  have htouched : f.id ∈ p.touched b := by
    by_contra hun
    exact hchanged ((buildFrame_after h (mt (mem_touched_iff h).mpr hun)).symm.trans hbuild)
  obtain ⟨-, values, hvalues, -⟩ := buildFrame_eq_ok.mp hbuild
  have hsupports : p.defaults.supports f.id = true := by
    rw [supports_eq]
    cases hstart : p.defaults.values? f.id with
    | some start => rfl
    | none =>
      rw [Table.frameValues, show (p.handle b).1.defaults = p.defaults from rfl, hstart] at hvalues
      cases hvalues
  exact mem_offers.mpr ⟨htouched, hsupports, hbuild⟩

end Provider

namespace Table
variable {t : Table} {paths : List String}

/-- After any operations, a batch leaves the values of each frame that it does not touch as they were, whatever the
    defaults, and so do several batches of which none touches the frame. So a provider offers every frame that a batch
    changes: one that is built from the new table, but was not built, or was built as another one, from the old. -/
theorem frameValues_of_untouched (operated : Operated t paths) :
    (∀ batch frame, frame ∉ (t.applyUpdates batch).2 → ∀ defaults,
      (t.applyUpdates batch).1.frameValues defaults frame = t.frameValues defaults frame) ∧
    (∀ batches frame, (∀ touched ∈ (t.applyBatches batches).2, frame ∉ touched) → ∀ defaults,
      (t.applyBatches batches).1.frameValues defaults frame = t.frameValues defaults frame) ∧
    ∀ p : Provider, p.table = t → ∀ b f, (p.handle b).1.buildFrame f.id = .ok f → p.buildFrame f.id ≠ .ok f →
      f ∈ (p.handle b).2 := by
  obtain ⟨l, h, -⟩ := operated.holds
  refine ⟨fun _ _ hun => h.frameValues_applyUpdates hun, fun _ _ hun => h.frameValues_applyBatches hun, ?_⟩
  rintro p rfl b f hbuild hchanged
  exact Provider.mem_offered_of_changed h hbuild hchanged

/-- The first batch touches one of the two frames, and the second one clears the value that the first one gave. -/
theorem frameValues_of_untouched_handle :
    let made := handleEntries.foldl (fun t x => t.insert x.1 x.2) empty
    let first : List (String × Scalar) := [("Vehicle.Open", .boolean true)]
    let second : List (String × Scalar) := [("Vehicle.Open", .integer 5), ("Vehicle.Unknown", .integer 9)]
    (made.applyUpdates first).2.toList = [258] ∧
      (∀ defaults, (made.applyUpdates first).1.frameValues defaults 259 = made.frameValues defaults 259) ∧
      ∀ defaults, (made.applyBatches [first, second]).1.frameValues defaults 259 = made.frameValues defaults 259 := by
  intro made first second
  have operated : Operated made _ := .insert (.insert (.insert .empty _ _) _ _) _ _
  obtain ⟨hbatch, hbatches, -⟩ := frameValues_of_untouched operated
  have htouched : (made.applyUpdates first).2.toList = [258] := by decide +kernel
  refine ⟨htouched, hbatch _ _ (by decide +kernel), hbatches _ _ ?_⟩
  have hnone : (made.applyBatches [first, second]).2.all (fun touched => !touched.contains 259) = true := by
    decide +kernel
  intro touched hmem hframe
  have hfalse := List.all_eq_true.mp hnone touched hmem
  rw [Std.TreeSet.contains_iff_mem.mpr hframe] at hfalse
  cases hfalse

end Table
end SignalBridge
