import SignalBridge.Mapping.Overlay
import SignalBridge.Proofs.TableIndices

/-! The values of a frame: those of its defaults, and over them the last values of its entries. Of entries for one
    signal that have a value the one that was put in last counts, and no more of the table is read. An entry shows
    its signal whether or not the defaults have it, so the names are those of the defaults, and no others exactly
    if the entries with a value keep to them. -/

namespace SignalBridge

/-- The entry has a value for a signal of a frame. -/
def Entry.shows (e : Entry) (frame : Nat) (name : String) : Bool :=
  e.frame == frame && (e.signal == name && e.last.isSome)

/-- The last value of an entry, with the signal it is for. -/
def Entry.shown? (e : Entry) : Option (String × Scalar) :=
  e.last.map (e.signal, ·)

namespace Table
variable {t : Table} {paths : List String} {values start : SignalValues} {entries : List Entry} {defaults : Defaults}
  {frame : Nat} {name : String}

/-! ### Overlays -/

theorem overlay_cons (e : Entry) : overlay values (e :: entries) =
    overlay (match e.last with
      | some v => values.insert e.signal v
      | none => values) entries := rfl

/-- Of several entries for one signal the last one that has a value counts. -/
theorem getElem?_overlay_eq : (overlay values entries)[name]? =
    match entries.findRev? (fun e => e.signal == name && e.last.isSome) with
    | some e => e.last
    | none => values[name]? := by
  induction entries generalizing values with
  | nil => rfl
  | cons e entries ih =>
    rw [overlay_cons, ih, List.findRev?]
    -- A later entry that shows the name hides this one.
    cases entries.findRev? (fun e => e.signal == name && e.last.isSome) with
    | some e' => rfl
    | none =>
      cases hlast : e.last with
      | none => simp
      | some v =>
        by_cases hname : e.signal = name
        · simp [hlast, hname]
        · simp [hname, Std.TreeMap.getElem?_insert]

theorem exists_of_getElem?_overlay {v : Scalar} (h : (overlay values entries)[name]? = some v) :
    (∃ e ∈ entries, e.last = some v) ∨ values[name]? = some v := by
  rw [getElem?_overlay_eq, List.findRev?_eq_find?_reverse] at h
  split at h
  next e hfind => exact .inl ⟨e, List.mem_reverse.mp (List.mem_of_find?_eq_some hfind), h⟩
  next => exact .inr h

theorem mem_overlay :
    name ∈ overlay values entries ↔ name ∈ values ∨ ∃ e ∈ entries, e.signal = name ∧ e.last.isSome = true := by
  rw [Std.TreeMap.mem_iff_isSome_getElem?, Std.TreeMap.mem_iff_isSome_getElem?, getElem?_overlay_eq,
    List.findRev?_eq_find?_reverse]
  cases hfind : entries.reverse.find? (fun e => e.signal == name && e.last.isSome) with
  | some e =>
    have he : e ∈ entries := List.mem_reverse.mp (List.mem_of_find?_eq_some hfind)
    have hshown : e.signal = name ∧ e.last.isSome = true := by simpa using List.find?_some hfind
    exact ⟨fun _ => .inr ⟨e, he, hshown⟩, fun _ => hshown.2⟩
  | none =>
    refine ⟨.inl, fun h => h.resolve_right ?_⟩
    rintro ⟨e, he, hname, hlast⟩
    exact List.find?_eq_none.mp hfind e (List.mem_reverse.mpr he) (by simp [hname, hlast])

/-- An overlay reads nothing of its entries but their signals and their last values. -/
theorem overlay_eq_insertMany : overlay values entries = values.insertMany (entries.filterMap Entry.shown?) := by
  induction entries generalizing values with
  | nil => rfl
  | cons e entries ih =>
    rw [overlay_cons, ih]
    cases hlast : e.last with
    | none =>
      have hnone : e.shown? = none := by rw [Entry.shown?, hlast, Option.map_none]
      rw [List.filterMap_cons_none hnone]
    | some v =>
      have hsome : e.shown? = some (e.signal, v) := by rw [Entry.shown?, hlast, Option.map_some]
      rw [List.filterMap_cons_some hsome, Std.TreeMap.insertMany_cons]

/-! ### Frames -/

/-- The last values that entries of a frame have, with their signals, in the order in which the entries were put
    in. -/
def lastValues (t : Table) (frame : Nat) : List (String × Scalar) :=
  (t.entries.toList.filter (·.frame == frame)).filterMap Entry.shown?

theorem Holds.entriesOfFrame_eq {l : List (String × Entry)} (h : Holds t l) (frame : Nat) :
    t.entriesOfFrame frame = t.entries.toList.filter (·.frame == frame) := by
  rw [h.entriesOfFrame, h.entries, List.filter_map]
  rfl

theorem frameValues_of_supported {l : List (String × Entry)} (h : Holds t l)
    (hdefaults : defaults.values? frame = some start) :
    t.frameValues defaults frame = .ok (overlay start (t.entries.toList.filter (·.frame == frame))) := by
  rw [frameValues, hdefaults, h.entriesOfFrame_eq]

theorem getElem?_overlay_frame :
    (overlay start (t.entries.toList.filter (·.frame == frame)))[name]? =
      match t.entries.toList.findRev? (·.shows frame name) with
      | some e => e.last
      | none => start[name]? := by
  rw [getElem?_overlay_eq, List.findRev?_eq_find?_reverse, List.findRev?_eq_find?_reverse, ← List.filter_reverse,
    List.find?_filter]
  simp only [Entry.shows, Bool.decide_and, Bool.decide_eq_true]

/-- A frame has values exactly if it has defaults. A signal has the last value of that entry of the frame for it
    that was put in last among those with a value, the default if there is none, and no value if there is no
    default either. Of the table nothing counts but the last values of the entries of the frame, in the order in
    which they were put in. -/
theorem frameValues_of_operated (operated : Operated t paths) (defaults : Defaults) (frame : Nat) :
    (∀ f, t.frameValues defaults frame = .error f ↔
      defaults.values? frame = none ∧ f = .unsupportedFrame frame) ∧
    (∀ start, defaults.values? frame = some start → ∃ values, t.frameValues defaults frame = .ok values ∧
      ∀ name : String, values[name]? =
        match t.entries.toList.findRev? (·.shows frame name) with
        | some e => e.last
        | none => start[name]?) ∧
    ∀ u paths', Operated u paths' → u.lastValues frame = t.lastValues frame →
      u.frameValues defaults frame = t.frameValues defaults frame := by
  obtain ⟨l, h, -⟩ := operated.holds
  refine ⟨fun f => ?_, fun start hdefaults => ?_, fun u paths' operated' hsame => ?_⟩
  · unfold frameValues
    cases defaults.values? frame with
    | none => exact ⟨fun hf => ⟨rfl, (Except.error.inj hf).symm⟩, fun hf => hf.2 ▸ rfl⟩
    | some start => exact ⟨nofun, nofun⟩
  · exact ⟨_, frameValues_of_supported h hdefaults, fun name => getElem?_overlay_frame⟩
  · obtain ⟨l', h', -⟩ := operated'.holds
    cases hdefaults : defaults.values? frame with
    | none => rw [frameValues, frameValues, hdefaults]
    | some start =>
      rw [frameValues_of_supported h hdefaults, frameValues_of_supported h' hdefaults, overlay_eq_insertMany,
        overlay_eq_insertMany]
      exact congrArg (fun shown => Except.ok (start.insertMany shown)) hsame

/-- Three entries for one signal, of which the third one is in another frame. -/
def handleEntries : List (String × Entry) :=
  let e (frame : Nat) (transform : Option Transform) : Entry := { signal := "Handle", frame, transform, last := none }
  [("Vehicle.Raw", e 258 none), ("Vehicle.Open", e 258 (some (.lookup [⟨.boolean true, .integer 1⟩]))),
    ("Vehicle.Other", e 259 none)]

/-- The second entry counts as long as its lookup has a value, also if the first one is updated after it. -/
theorem frameValues_of_operated_handle :
    let made := handleEntries.foldl (fun t x => t.insert x.1 x.2) empty
    let after (batch : List (String × Scalar)) := (made.applyUpdates batch).1
    let defaults := Defaults.empty.insert 258 (.ofList [("Handle", Scalar.integer 0), ("Mirror", .integer 0)])
    let opened := after [("Vehicle.Open", .boolean true), ("Vehicle.Raw", .integer 7), ("Vehicle.Other", .integer 9)]
    let failed := after [("Vehicle.Open", .boolean true), ("Vehicle.Raw", .integer 7), ("Vehicle.Open", .integer 5)]
    let swapped := after [("Vehicle.Raw", .integer 7), ("Vehicle.Open", .boolean true)]
    (∃ values, opened.frameValues defaults 258 = .ok values ∧ values["Handle"]? = some (.integer 1) ∧
      values["Mirror"]? = some (.integer 0)) ∧
    (∃ values, failed.frameValues defaults 258 = .ok values ∧ values["Handle"]? = some (.integer 7)) ∧
    swapped.frameValues defaults 258 = opened.frameValues defaults 258 ∧
    opened.frameValues defaults 259 = .error (.unsupportedFrame 259) := by
  intro made after defaults opened failed swapped
  have hoperated (batch : List (String × Scalar)) : Operated (after batch) _ :=
    .applyUpdates (.insert (.insert (.insert .empty _ _) _ _) _ _) batch
  have hentries (batch : List (String × Scalar)) :
      (after batch).entries.toList = handleEntries.map fun x => (settled batch x).2 := by
    have hmade : Holds made handleEntries := holds_empty.insert.insert.insert
    have hafter : after batch = made.updateAll batch := applyUpdates_fst
    rw [hafter, hmade.updateAll.entries, List.map_map]
    rfl
  obtain ⟨-, hvalues, hsame⟩ := frameValues_of_operated (hoperated _) defaults 258
  obtain ⟨values, hopened, hnames⟩ := hvalues _ rfl
  obtain ⟨-, hvalues', -⟩ := frameValues_of_operated (hoperated _) defaults 258
  obtain ⟨values', hfailed, hnames'⟩ := hvalues' _ rfl
  obtain ⟨hnone, -, -⟩ := frameValues_of_operated (hoperated _) defaults 259
  refine ⟨⟨values, hopened, ?_, ?_⟩, ⟨values', hfailed, ?_⟩, hsame _ _ (hoperated _) ?_, (hnone _).mpr ⟨rfl, rfl⟩⟩
  · rw [hnames, hentries]
    rfl
  · rw [hnames, hentries]
    rfl
  · rw [hnames', hentries]
    rfl
  · rw [lastValues, lastValues, hentries, hentries]
    rfl

/-! ### Names -/

section
variable {l : List (String × Entry)} (h : Holds t l) (hdefaults : defaults.values? frame = some start)
  (hvalues : t.frameValues defaults frame = .ok values)
include h hdefaults hvalues

theorem Holds.mem_frameValues :
    name ∈ values ↔ name ∈ start ∨ ∃ e ∈ t.entries.toList, e.shows frame name = true := by
  obtain rfl := Except.ok.inj ((frameValues_of_supported h hdefaults).symm.trans hvalues)
  rw [mem_overlay]
  simp only [List.mem_filter, Entry.shows, Bool.and_eq_true, beq_iff_eq, and_assoc]

theorem Holds.names_iff : (∀ name, name ∈ values ↔ name ∈ start) ↔
    ∀ e ∈ t.entries.toList, e.frame = frame → e.last.isSome = true → e.signal ∈ start := by
  constructor
  · intro hsame e he hframe hlast
    refine (hsame _).mp ((h.mem_frameValues hdefaults hvalues).mpr (.inr ⟨e, he, ?_⟩))
    simp [Entry.shows, hframe, hlast]
  · intro hkept name
    rw [h.mem_frameValues hdefaults hvalues]
    refine ⟨fun hname => hname.elim id ?_, .inl⟩
    rintro ⟨e, he, hshows⟩
    simp only [Entry.shows, Bool.and_eq_true, beq_iff_eq] at hshows
    exact hshows.2.1 ▸ hkept e he hshows.1 hshows.2.2

end

/-- A frame with defaults has all names of its defaults, and the names of its entries that have a value. So it has
    the names of its defaults alone exactly if its entries that have a value keep to them, and if all its entries
    do, that stays so whatever batches are applied. -/
theorem names_of_frameValues (operated : Operated t paths) (hdefaults : defaults.values? frame = some start) :
    ∃ values, t.frameValues defaults frame = .ok values ∧
      (∀ name, name ∈ values ↔ name ∈ start ∨ ∃ e ∈ t.entries.toList, e.shows frame name = true) ∧
      ((∀ name, name ∈ values ↔ name ∈ start) ↔
        ∀ e ∈ t.entries.toList, e.frame = frame → e.last.isSome = true → e.signal ∈ start) ∧
      ((∀ e ∈ t.entries.toList, e.frame = frame → e.signal ∈ start) → ∀ batches, ∃ values',
        (t.applyBatches batches).1.frameValues defaults frame = .ok values' ∧
          ∀ name, name ∈ values' ↔ name ∈ start) := by
  obtain ⟨l, h, -⟩ := operated.holds
  have hvalues := frameValues_of_supported h hdefaults
  refine ⟨_, hvalues, fun name => h.mem_frameValues hdefaults hvalues, h.names_iff hdefaults hvalues,
    fun hkept batches => ?_⟩
  have hafter : Holds (t.applyBatches batches).1 (l.map (settled batches.flatten)) := applyBatches_fst ▸ h.updateAll
  have hvalues' := frameValues_of_supported hafter hdefaults
  -- Batches move no entry to another signal, so those of the frame still keep to its defaults.
  refine ⟨_, hvalues', (hafter.names_iff hdefaults hvalues').mpr fun e he hframe _ => ?_⟩
  rw [hafter.entries, List.map_map] at he
  obtain ⟨x, hx, rfl⟩ := List.mem_map.mp he
  rw [Function.comp_apply, settled_frame] at hframe
  rw [Function.comp_apply, settled_signal]
  exact hkept x.2 (h.entries ▸ List.mem_map_of_mem hx) hframe

/-- Both entries of the frame are for a signal of its defaults, so no batch adds a name. -/
theorem names_of_frameValues_handle :
    let made := handleEntries.foldl (fun t x => t.insert x.1 x.2) empty
    let defaults := Defaults.empty.insert 258 (.ofList [("Handle", Scalar.integer 0), ("Mirror", .integer 0)])
    ∀ batches, ∃ values, (made.applyBatches batches).1.frameValues defaults 258 = .ok values ∧
      ∀ name, name ∈ values ↔ name = "Handle" ∨ name = "Mirror" := by
  intro made defaults batches
  have hmade : Operated made _ := .insert (.insert (.insert .empty _ _) _ _) _ _
  have hdefaults : defaults.values? 258 = some (.ofList [("Handle", Scalar.integer 0), ("Mirror", .integer 0)]) := rfl
  obtain ⟨-, -, -, -, hkept⟩ := names_of_frameValues hmade hdefaults
  have hsignals : ∀ e ∈ made.entries.toList, e.signal = "Handle" := by
    have hentries : made.entries.toList = handleEntries.map (·.2) := rfl
    rw [hentries]
    decide
  obtain ⟨values, hvalues, hnames⟩ := hkept (fun e he _ => by rw [hsignals e he]; rfl) batches
  refine ⟨values, hvalues, fun name => ?_⟩
  rw [hnames, Std.TreeMap.mem_ofList, List.contains_iff_mem, List.map_cons, List.map_cons, List.map_nil,
    List.mem_pair]

/-- A text and a document with a signal of the door status that has no default. -/
def windowText : String :=
  "VERSION \"\"\nNS_ :\nBO_ 258 ID102VCLEFT_doorStatus: 8 X\n" ++
  " SG_ VCLEFT_frontLatchStatus : 0|4@1+ (1,0) [0|0] \"\" X\n SG_ VCLEFT_windowState : 4|4@1+ (1,0) [0|0] \"\" X\n"

def windowDocument : Json :=
  .object [("Vehicle", .object [("type", .string "branch"), ("children", .object [("Window",
    .object [("type", .string "actuator"), ("vss2dbc", .object [("signal", .string "VCLEFT_windowState")])])])])]

/-- With the defaults of the program, an update of the signal adds its name. -/
theorem name_without_default :
    ∃ d t start values, Database.empty.load windowText = .ok d ∧ build windowDocument d.frameOf? = .ok t ∧
      Defaults.builtin.values? 258 = some start ∧
      (t.applyBatches [[("Vehicle.Window", .integer 3)]]).1.frameValues Defaults.builtin 258 = .ok values ∧
      "VCLEFT_windowState" ∈ values ∧ "VCLEFT_windowState" ∉ start := by
  have hrun : (Database.empty.load windowText).toOption.any (fun d => (build windowDocument d.frameOf?).toOption.any
      fun t => (Defaults.builtin.values? 258).any fun start =>
        ((t.applyBatches [[("Vehicle.Window", .integer 3)]]).1.frameValues Defaults.builtin 258).toOption.any
          fun values => values.contains "VCLEFT_windowState" && !start.contains "VCLEFT_windowState") = true := by
    decide +kernel
  obtain ⟨d, hd, hrun⟩ := (Option.any_eq_true _ _).mp hrun
  obtain ⟨t, ht, hrun⟩ := (Option.any_eq_true _ _).mp hrun
  obtain ⟨start, hstart, hrun⟩ := (Option.any_eq_true _ _).mp hrun
  obtain ⟨values, hvalues, hrun⟩ := (Option.any_eq_true _ _).mp hrun
  obtain ⟨hmem, hnone⟩ := Bool.and_eq_true_iff.mp hrun
  refine ⟨d, t, start, values, toOption_eq_some.mp hd, toOption_eq_some.mp ht, hstart, toOption_eq_some.mp hvalues,
    Std.TreeMap.contains_iff_mem.mp hmem, fun h => ?_⟩
  rw [Std.TreeMap.contains_iff_mem.mpr h] at hnone
  cases hnone

end Table
end SignalBridge
