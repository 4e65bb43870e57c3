import Mathlib.Data.List.Forall2
import SignalBridge.Mapping.Dispatch
import SignalBridge.Proofs.TableContent

/-! What dispatching does over a whole history. An update refreshes exactly the entries of its path and
    reports their frames, so after any number of batches an entry has the value that its transform gives
    for the latest update of its path, and the rest of the table is as it was made. -/

namespace SignalBridge

namespace Table
variable {t : Table} {l : List (String × Entry)} {v : Scalar} {path : String} {frame : Nat}
  {updates batch : List (String × Scalar)}

theorem exists_mem_map {α β : Type} {f : α → β} {l : List α} {p : β → Prop} :
    (∃ y ∈ l.map f, p y) ↔ ∃ x ∈ l, p (f x) := by
  constructor
  · rintro ⟨y, hy, hp⟩
    obtain ⟨x, hx, rfl⟩ := List.mem_map.mp hy
    exact ⟨x, hx, hp⟩
  · rintro ⟨x, hx, hp⟩
    exact ⟨f x, List.mem_map_of_mem hx, hp⟩

/-! ### One update -/

theorem foldl_refresh_byPath {numbers : List Nat} :
    (numbers.foldl (fun t number => t.refresh v number) t).byPath = t.byPath := by
  induction numbers generalizing t with
  | nil => rfl
  | cons number numbers ih => exact ih

theorem foldl_refresh_byFrame {numbers : List Nat} :
    (numbers.foldl (fun t number => t.refresh v number) t).byFrame = t.byFrame := by
  induction numbers generalizing t with
  | nil => rfl
  | cons number numbers ih => exact ih

/-- Refreshing an entry again changes nothing, so it does not matter how often a number is listed. -/
theorem getElem?_foldl_refresh {numbers : List Nat} {i : Nat} :
    (numbers.foldl (fun t number => t.refresh v number) t).entries[i]? =
      (t.entries[i]?).map fun e => if i ∈ numbers then e.refreshed v else e := by
  induction numbers generalizing t with
  | nil => simp
  | cons number numbers ih =>
    rw [List.foldl_cons, ih, refresh, Array.getElem?_modify]
    by_cases hi : number = i
    · rw [if_pos hi, Option.map_map]
      congr 1
      funext e
      by_cases hmem : i ∈ numbers
      · simp [hi, hmem, Entry.refreshed]
      · simp [hi, hmem]
    · have hmem : i ∈ number :: numbers ↔ i ∈ numbers := by simp [Ne.symm hi]
      simp only [if_neg hi, hmem]

@[simp] theorem update_byPath : (t.update path v).byPath = t.byPath := foldl_refresh_byPath

@[simp] theorem update_byFrame : (t.update path v).byFrame = t.byFrame := foldl_refresh_byFrame

theorem getElem?_update {i : Nat} : (t.update path v).entries[i]? =
    (t.entries[i]?).map fun e => if i ∈ t.byPath.getD path [] then e.refreshed v else e :=
  getElem?_foldl_refresh

/-- An update moves no entry to another frame. -/
theorem framesOfPath_update {path' : String} : (t.update path v).framesOfPath path' = t.framesOfPath path' := by
  simp only [framesOfPath, entriesOfPath, Table.select, List.map_filterMap, update_byPath, getElem?_update,
    Option.map_map]
  congr 1
  funext i
  congr 1
  funext e
  simp only [Function.comp_apply]
  split <;> rfl

/-- What an update of a path makes of an entry. -/
def given (path : String) (v : Scalar) (x : String × Entry) : String × Entry :=
  (x.1, if x.1 = path then x.2.refreshed v else x.2)

theorem Holds.update (h : Holds t l) : Holds (t.update path v) (l.map (given path v)) := by
  have hframe : ∀ x, (given path v x).2.frame = x.2.frame := fun x => by
    unfold given
    split <;> rfl
  refine ⟨List.ext_getElem? fun i => ?_, fun path' => ?_, fun frame' => ?_, fun path' => ?_, fun frame' => ?_⟩
  · rw [Array.getElem?_toList, getElem?_update, ← Array.getElem?_toList, h.entries, h.byPath, List.map_map,
      List.getElem?_map, List.getElem?_map, Option.map_map]
    cases hx : l[i]? with
    | none => rfl
    | some x =>
      obtain ⟨hlt, hx⟩ := List.getElem?_eq_some_iff.mp hx
      have hmem : i ∈ l.findIdxs (·.1 == path) ↔ x.1 = path := by
        rw [List.mem_findIdxs_iff_pos_getElem hlt, hx, beq_iff_eq]
      simp [given, hmem]
  · rw [update_byPath, h.byPath, List.findIdxs_map]
    rfl
  · rw [update_byFrame, h.byFrame, List.findIdxs_map]
    congr 1
    funext x
    rw [Function.comp_apply, hframe]
  · rw [update_byPath, h.paths, exists_mem_map]
    exact Iff.rfl
  · rw [update_byFrame, h.frames, exists_mem_map]
    simp only [hframe]

/-! ### A sequence of updates -/

/-- The value of the last of some updates that is for a path. -/
def latest (path : String) (updates : List (String × Scalar)) : Option Scalar :=
  ((updates.filter (·.1 == path)).getLast?).map (·.2)

theorem latest_cons {u : String × Scalar} : latest path (u :: updates) =
    (latest path updates).or (if u.1 = path then some u.2 else none) := by
  unfold latest
  by_cases hu : u.1 = path
  · rw [List.filter_cons_of_pos (by simpa using hu), List.getLast?_cons, if_pos hu]
    cases (updates.filter (·.1 == path)).getLast? <;> rfl
  · rw [List.filter_cons_of_neg (by simpa using hu), if_neg hu, Option.or_none]

theorem latest_eq_none (h : ∀ v, (path, v) ∉ updates) : latest path updates = none := by
  have hnil : updates.filter (·.1 == path) = [] := by
    rw [List.filter_eq_nil_iff]
    intro u hu hpath
    exact h u.2 (beq_iff_eq.mp hpath ▸ hu)
  rw [latest, hnil]
  rfl

/-- What a sequence of updates makes of an entry: the latest one of its path counts. -/
def settled (updates : List (String × Scalar)) (x : String × Entry) : String × Entry :=
  (x.1, (latest x.1 updates).elim x.2 x.2.refreshed)

theorem settled_cons {u : String × Scalar} {x : String × Entry} :
    settled (u :: updates) x = settled updates (given u.1 u.2 x) := by
  unfold settled
  rw [latest_cons]
  by_cases hu : u.1 = x.1
  · cases hlate : latest x.1 updates <;> simp [given, hu, hlate, Entry.refreshed]
  · simp [given, hu, Ne.symm hu]

@[simp] theorem settled_frame (x : String × Entry) : (settled updates x).2.frame = x.2.frame := by
  unfold settled
  cases latest x.1 updates <;> rfl

@[simp] theorem settled_signal (x : String × Entry) : (settled updates x).2.signal = x.2.signal := by
  unfold settled
  cases latest x.1 updates <;> rfl

/-- The table after a sequence of updates. -/
def updateAll (t : Table) (updates : List (String × Scalar)) : Table :=
  updates.foldl (fun t u => t.update u.1 u.2) t

theorem updateAll_append {later : List (String × Scalar)} :
    t.updateAll (updates ++ later) = (t.updateAll updates).updateAll later := List.foldl_append

theorem updateAll_byPath : (t.updateAll updates).byPath = t.byPath := by
  induction updates generalizing t with
  | nil => rfl
  | cons u updates ih => exact ih.trans update_byPath

theorem updateAll_byFrame : (t.updateAll updates).byFrame = t.byFrame := by
  induction updates generalizing t with
  | nil => rfl
  | cons u updates ih => exact ih.trans update_byFrame

theorem Holds.updateAll (h : Holds t l) : Holds (t.updateAll updates) (l.map (settled updates)) := by
  induction updates generalizing t l with
  | nil =>
    have hid : settled [] = id := rfl
    rw [hid, List.map_id]
    exact h
  | cons u updates ih =>
    have hcomp : settled (u :: updates) = settled updates ∘ given u.1 u.2 := funext fun x => settled_cons
    rw [hcomp, ← List.map_map]
    exact ih h.update

/-! ### Batches -/

/-- One update of a batch, with the frames collected so far. -/
def collect (x : Table × Std.TreeSet Nat) (u : String × Scalar) : Table × Std.TreeSet Nat :=
  (x.1.update u.1 u.2, x.2.insertMany (x.1.framesOfPath u.1))

theorem applyUpdates_eq_foldl : t.applyUpdates batch = batch.foldl collect (t, ∅) := rfl

theorem foldl_collect_fst {touched : Std.TreeSet Nat} : (batch.foldl collect (t, touched)).1 = t.updateAll batch := by
  induction batch generalizing t touched with
  | nil => rfl
  | cons u batch ih => exact ih

theorem mem_foldl_collect_snd {touched : Std.TreeSet Nat} : frame ∈ (batch.foldl collect (t, touched)).2 ↔
    frame ∈ touched ∨ ∃ u ∈ batch, frame ∈ t.framesOfPath u.1 := by
  induction batch generalizing t touched with
  | nil => simp
  | cons u batch ih =>
    rw [List.foldl_cons, collect, ih]
    simp only [framesOfPath_update, Std.TreeSet.mem_insertMany_list, List.contains_iff_mem, List.mem_cons,
      exists_eq_or_imp, or_assoc]

theorem applyUpdates_fst : (t.applyUpdates batch).1 = t.updateAll batch := by
  rw [applyUpdates_eq_foldl, foldl_collect_fst]

/-- The frames that a batch touches are those of the paths it updates, whatever their entries were given. -/
theorem mem_applyUpdates_snd : frame ∈ (t.applyUpdates batch).2 ↔ ∃ u ∈ batch, frame ∈ t.framesOfPath u.1 := by
  rw [applyUpdates_eq_foldl, mem_foldl_collect_snd]
  simp

/-- A batch touches a frame if it updates a path that an entry of the frame was put in under. -/
def Touches (batch : List (String × Scalar)) (l : List (String × Entry)) (frame : Nat) : Prop :=
  ∃ x ∈ l, x.2.frame = frame ∧ ∃ v, (x.1, v) ∈ batch

theorem touches_settled : Touches batch (l.map (settled updates)) frame ↔ Touches batch l frame := by
  unfold Touches
  rw [exists_mem_map]
  simp only [settled_frame]
  exact Iff.rfl

theorem Holds.mem_touched (h : Holds t l) : frame ∈ (t.applyUpdates batch).2 ↔ Touches batch l frame := by
  simp only [mem_applyUpdates_snd, framesOfPath, h.entriesOfPath, Touches, List.mem_map, List.mem_filter, beq_iff_eq]
  constructor
  · rintro ⟨u, hu, e, ⟨x, ⟨hx, hpath⟩, rfl⟩, rfl⟩
    exact ⟨x, hx, rfl, u.2, hpath ▸ hu⟩
  · rintro ⟨x, hx, rfl, v, hv⟩
    exact ⟨(x.1, v), hv, x.2, ⟨x, ⟨hx, rfl⟩, rfl⟩, rfl⟩

/-- Applies batches one after the other, and collects what each of them touches. -/
def applyBatches (t : Table) : List (List (String × Scalar)) → Table × List (Std.TreeSet Nat)
  | [] => (t, [])
  | batch :: batches =>
    let (t, touched) := t.applyUpdates batch
    let (t, later) := applyBatches t batches
    (t, touched :: later)

theorem applyBatches_fst : ∀ {batches : List (List (String × Scalar))} {t : Table},
    (t.applyBatches batches).1 = t.updateAll batches.flatten
  | [], _ => rfl
  | batch :: batches, t => by
    have hrest : (t.applyBatches (batch :: batches)).1 = ((t.applyUpdates batch).1.applyBatches batches).1 := rfl
    rw [hrest, applyBatches_fst, List.flatten_cons, updateAll_append, applyUpdates_fst]

theorem Holds.applyBatches_snd {batches : List (List (String × Scalar))} (h : Holds t l) :
    List.Forall₂ (fun batch touched => ∀ frame, frame ∈ touched ↔ Touches batch l frame) batches
      (t.applyBatches batches).2 := by
  induction batches generalizing t l with
  | nil => exact .nil
  | cons batch batches ih =>
    have hnext : Holds (t.applyUpdates batch).1 (l.map (settled batch)) := applyUpdates_fst ▸ h.updateAll
    have hlater := ih hnext
    simp only [touches_settled] at hlater
    exact .cons (fun _ => h.mem_touched) hlater

/-- After any batches each entry has the value that its transform gives for the latest update of its
    path, and none if there was no update or the transform gave none. Each batch touches the frames of
    the entries it refreshes. Signals, frames, transforms and both indices stay as they were. -/
theorem history_of_made (made : Made t l) (batches : List (List (String × Scalar))) :
    t.entries.toList = l.map (·.2) ∧
      (t.applyBatches batches).1.entries.toList = l.map (fun x =>
        { x.2 with last := (latest x.1 batches.flatten).bind (transformed? x.2.transform) }) ∧
      (t.applyBatches batches).1.byPath = t.byPath ∧ (t.applyBatches batches).1.byFrame = t.byFrame ∧
      List.Forall₂ (fun batch touched => ∀ frame, frame ∈ touched ↔
        ∃ x ∈ l, x.2.frame = frame ∧ ∃ v, (x.1, v) ∈ batch) batches (t.applyBatches batches).2 := by
  have h := made.holds
  refine ⟨h.entries, ?_, ?_, ?_, h.applyBatches_snd⟩
  · rw [applyBatches_fst, h.updateAll.entries, List.map_map]
    apply List.map_congr_left
    intro x hx
    have hlast := made.last x hx
    rw [Function.comp_apply, settled]
    cases latest x.1 batches.flatten with
    | none =>
      show x.2 = { x.2 with last := none }
      rw [← hlast]
    | some v => rfl
  · rw [applyBatches_fst, updateAll_byPath]
  · rw [applyBatches_fst, updateAll_byFrame]

/-- Two entries under one path: a lookup that knows `true` alone in frame 258, the value as it is in
    frame 259. -/
def doorEntries : List (String × Entry) :=
  let path := "Vehicle.Cabin.Door.Row1.DriverSide.IsOpen"
  let opened := Transform.lookup [⟨.boolean true, .integer 1⟩]
  [(path, { signal := "DoorOpen", frame := 258, transform := some opened, last := none }),
    (path, { signal := "DoorRaw", frame := 259, transform := none, last := none })]

/-- The lookup has a value for the first batch, and none for the last update of the second. -/
theorem history_of_made_lookup :
    let t := doorEntries.foldl (fun t x => t.insert x.1 x.2) empty
    let path := "Vehicle.Cabin.Door.Row1.DriverSide.IsOpen"
    let after (batches : List (List (String × Scalar))) := (t.applyBatches batches).1.entries.toList.map (·.last)
    after [[(path, .boolean true)]] = [some (.integer 1), some (.boolean true)] ∧
      after [[(path, .boolean true)], [("Vehicle.Speed", .integer 3), (path, .integer 7)]] =
        [none, some (.integer 7)] := by
  intro t path after
  have made : Made t doorEntries := .insert (.insert .empty rfl) rfl
  refine ⟨?_, ?_⟩
  · obtain ⟨-, h, -⟩ := history_of_made made [[(path, .boolean true)]]
    simp only [after, h]
    rfl
  · obtain ⟨-, h, -⟩ := history_of_made made
      [[(path, .boolean true)], [("Vehicle.Speed", .integer 3), (path, .integer 7)]]
    simp only [after, h]
    rfl

end Table
end SignalBridge
