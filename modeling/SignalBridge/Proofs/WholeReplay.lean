import SignalBridge.Proofs.UpToDate

/-! A whole replay, which no request for shutdown stops. Since updates of paths without an entry change nothing and touch
    no frame, it makes no difference that it is only delivered those of the paths it subscribed to: the
    run is what plain reading of the recording, line by line and batch by whole batch, would do. -/

namespace SignalBridge

/-! ### Updates of paths without an entry -/

namespace Table
variable {t : Table} {updates : List (String × Scalar)}

theorem contains_paths {path : String} : t.paths.contains path = true ↔ path ∈ t.byPath := by
  rw [List.contains_iff_mem, paths, Std.TreeMap.mem_keys]

/-- An update of a path without an entry changes nothing and touches no frame. -/
theorem collect_of_notMem {x : Table × Std.TreeSet Nat} {u : String × Scalar} (h : u.1 ∉ x.1.byPath) :
    collect x u = x := by
  have hnil : x.1.byPath.getD u.1 [] = [] := Std.TreeMap.getD_eq_fallback h
  have hupdate : x.1.update u.1 u.2 = x.1 := by
    rw [update, hnil]
    rfl
  have hframes : x.1.framesOfPath u.1 = [] := by
    rw [framesOfPath, entriesOfPath, hnil]
    rfl
  rw [collect, hupdate, hframes, Std.TreeSet.insertMany_nil]

theorem applyUpdates_filter : t.applyUpdates (updates.filter (t.paths.contains ·.1)) = t.applyUpdates updates := by
  have hfold (x : Table × Std.TreeSet Nat) (hx : x.1.byPath = t.byPath) :
      (updates.filter (t.paths.contains ·.1)).foldl collect x = updates.foldl collect x := by
    induction updates generalizing x with
    | nil => rfl
    | cons u updates ih =>
      by_cases hu : u.1 ∈ t.byPath
      · rw [List.filter_cons, if_pos (contains_paths.mpr hu)]
        exact ih _ (update_byPath.trans hx)
      · rw [List.filter_cons, if_neg (mt contains_paths.mp hu), List.foldl_cons, collect_of_notMem (hx ▸ hu)]
        exact ih x hx
  exact hfold _ rfl

end Table

namespace Provider
variable {p : Provider} {b : Batch}

theorem targets_subscribed {paths : List String} :
    targets (Replay.subscribed paths b) = (targets b).filter (paths.contains ·.1) := by
  rw [targets, targets, Replay.subscribed, List.filterMap_filter, List.filter_filterMap]
  congr 1
  funext u
  obtain ⟨path, field, value⟩ := u
  cases field with
  | value => simp
  | target => cases value <;> simp [Option.filter_some]

/-- The part of a batch that concerns the mapped paths does all that the batch does. -/
theorem handle_subscribed : p.handle (Replay.subscribed p.table.paths b) = p.handle b := by
  rw [handle, handle, targets_subscribed, Table.applyUpdates_filter]

theorem paths_handle : (p.handle b).1.table.paths = p.table.paths := by
  have htable : (p.handle b).1.table = p.table.updateAll (targets b) := Table.applyUpdates_fst
  rw [Table.paths, Table.paths, htable, Table.updateAll_byPath]

/-! ### Plain reading -/

variable {m : Type → Type} [Monad m] {send : Frame → m Bool} {r : Run} {paths : List String}

namespace Run

/-- The run with one more failure. -/
def failed (r : Run) : Run :=
  { r with stats := { r.stats with failed := r.stats.failed + 1 } }

/-- The run after a batch of whose frames some were taken. -/
def handled (r : Run) (b : Batch) (taken : List Frame) : Run where
  provider := (r.provider.handle b).1
  stats := { r.stats with batches := r.stats.batches + 1, sent := r.stats.sent + taken.length }
  frames := r.frames ++ taken
  untaken := r.untaken

/-- Reads the lines of a recording one after the other. A blank line is passed over; every batch is handled as
    a whole, and its frames are offered to the sink, which says which of them it takes; a line that is no
    batch is counted as failed; so is a line that is not text, and it is the last one. -/
def replay (send : Frame → m Bool) (r : Run) : List (List UInt8) → m Run
  | [] => return r
  | line :: lines =>
    match String.fromUTF8? (ByteArray.mk line.toArray) with
    | none => return r.failed
    | some text =>
      if text.toList.all Text.isBlank then replay send r lines
      else match Batch.parse? text with
        | none => replay send r.failed lines
        | some b => do replay send (r.handled b (← (r.provider.handle b).2.filterM send)) lines

/-- Taking the deliveries of the mapped paths is plain reading. -/
theorem takeAllInto_deliveries [LawfulMonad m] {lines : List (List UInt8)} (hpaths : r.provider.table.paths = paths) :
    takeAllInto send { r with untaken := Replay.deliveries paths lines } (Replay.deliveries paths lines) =
      replay send { r with untaken := [] } lines := by
  induction lines generalizing r with
  | nil => rfl
  | cons line lines ih =>
    unfold Replay.deliveries replay Replay.readLine
    cases String.fromUTF8? (ByteArray.mk line.toArray) with
    | none => exact pure_bind _ _
    | some text =>
      by_cases hblank : text.toList.all Text.isBlank = true
      · simp only [hblank, if_true]
        exact ih hpaths
      · simp only [hblank, Bool.false_eq_true, if_false]
        cases Batch.parse? text with
        | none => exact (pure_bind _ _).trans (ih (r := r.failed) hpaths)
        | some b =>
          have hhandle : r.provider.handle (Replay.subscribed paths b) = r.provider.handle b := hpaths ▸ handle_subscribed
          simp only [takeAllInto, takeInto, hhandle, bind_assoc, pure_bind]
          congr 1
          funext taken
          exact ih (r := r.handled b taken) (paths_handle.trans hpaths)

end Run

/-- A run that is not requested to shut down, over the deliveries of the paths it subscribes to, is plain reading
    of the recording: with the same actions of the sink it gives the same frames, table and counts. -/
theorem runInto_deliveries [LawfulMonad m] {schedule : Shutdown.Schedule} (hquiet : schedule.NeverRequests)
    (p : Provider) (send : Frame → m Bool) (content : List UInt8) :
    p.runInto send schedule (Replay.deliveries (p.subscription.map (·.1)) (Replay.lines content)) =
      (Run.start p []).replay send (Replay.lines content) := by
  have hpaths : p.subscription.map (·.1) = p.table.paths := by rw [subscription, List.map_map]; exact List.map_id _
  rw [hpaths]
  exact (steps_of_neverRequests hquiet rfl).trans (Run.takeAllInto_deliveries (r := .start p []) rfl)

/-- The sender is lost at the start, and the sink refuses every second frame. Of the lines, the second is blank,
    the third is no batch, the fourth has an update of a path that is not mapped, and the sixth is not text. -/
theorem runInto_deliveries_doorLock :
    let lock (v : String) := "[\"Vehicle.Cabin.Door.Row1.DriverSide.IsLocked\",\"actuator_target\"," ++ v ++ "]"
    let content := ("[" ++ lock "true" ++ "]\n \n[\n[" ++ lock "false" ++ ",[\"Vehicle.Speed\",\"actuator_target\",7]]\n[" ++
      lock "1" ++ "]\n").toUTF8.toList ++ [255, 10, 91, 93]
    let send : Frame → StateM Nat Bool := fun _ => modifyGet fun n => (n % 2 == 0, n + 1)
    let read := (Run.start doorLock []).replay send (Replay.lines content)
    doorLock.runInto send (.atStart [.senderGone])
        (Replay.deliveries (doorLock.subscription.map (·.1)) (Replay.lines content)) = read ∧
      (read.run 0).1.frames = [⟨258, false, [1]⟩, ⟨258, false, [1]⟩] ∧ (read.run 0).1.stats = ⟨3, 2, 2⟩ := by
  intro lock content send read
  have hquiet : (Shutdown.Schedule.atStart [.senderGone]).NeverRequests :=
    Shutdown.Schedule.neverRequests_atStart (by decide)
  exact ⟨runInto_deliveries hquiet doorLock send content, by decide +kernel⟩

end Provider
end SignalBridge
