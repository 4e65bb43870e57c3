import SignalBridge.Program
import SignalBridge.Proofs.BatchEffect
import SignalBridge.Proofs.FrameOverlay
import SignalBridge.Proofs.Loading
import SignalBridge.Proofs.RoundTrip
import SignalBridge.Proofs.UpToDate

/-! Why a frame that was touched cannot be built. In a provider whose table was made with the frames of its
    database every entry names a message that carries its signal, whatever batches were taken. So the message and
    the defaults are there, and what is left are values that are missing from the defaults or do not fit. -/

namespace SignalBridge

/-! ### Faults of a message -/

/-- There is no number to carry `x` with, or it is too small or too great for the bits. -/
def Signal.Exceeds (s : Signal) (x : Float) : Prop :=
  ∀ i, Double.round? ((x - s.offset) / s.factor) = some i → ¬(s.range.1 ≤ i ∧ i ≤ s.range.2)

/-- Some value is no number or out of range, or some signal lies outside of the frame. -/
inductive Message.Unfit (m : Message) (values : SignalValues) : Fault → Prop
  | notNumeric {s : Signal} {v : Scalar} (hs : s ∈ m.signals) (hv : values[s.name]? = some v)
    (hnone : v.toDouble? = none) : Unfit m values (.notNumeric s.name v)
  | outOfRange {s : Signal} {v : Scalar} {x : Float} (hs : s ∈ m.signals) (hv : values[s.name]? = some v)
    (hx : v.toDouble? = some x) (hexceeds : s.Exceeds x) : Unfit m values (.outOfRange s.name v s.length)
  | outsideFrame {s : Signal} {position : Nat} (hs : s ∈ m.signals) (hposition : position ∈ s.run)
    (hout : 8 * m.size ≤ position) : Unfit m values (.outsideFrame s.name m.size)

/-- Some signal has no value. -/
inductive Message.Missing (m : Message) (values : SignalValues) : Fault → Prop
  | intro {name : String} (hname : name ∈ m.signalNames) (hnone : values[name]? = none) :
    Missing m values (.missingValue m.frame name)

theorem Signal.toRaw_eq_error {s : Signal} {v : Scalar} {f : Fault} (h : s.toRaw v = .error f) :
    v.toDouble? = none ∧ f = .notNumeric s.name v ∨
      ∃ x, v.toDouble? = some x ∧ s.Exceeds x ∧ f = .outOfRange s.name v s.length := by
  unfold Signal.toRaw at h
  split at h
  next hnone => exact .inl ⟨hnone, (Except.error.inj h).symm⟩
  next x hx =>
    refine .inr ⟨x, hx, ?_⟩
    dsimp only at h
    split at h
    next i hi =>
      split at h
      · cases h
      next hout => exact ⟨fun j hj => Option.some.inj (hi.symm.trans hj) ▸ hout, (Except.error.inj h).symm⟩
    next hnone => exact ⟨fun j hj => (nomatch hnone.symm.trans hj), (Except.error.inj h).symm⟩

namespace Message
variable {m : Message} {values : SignalValues} {f : Fault} {s : Signal}

theorem Unfit.of_toRaw {v : Scalar} (hs : s ∈ m.signals) (hv : values[s.name]? = some v) (h : s.toRaw v = .error f) :
    m.Unfit values f := by
  rcases Signal.toRaw_eq_error h with ⟨hnone, rfl⟩ | ⟨x, hx, hexceeds, rfl⟩
  · exact .notNumeric hs hv hnone
  · exact .outOfRange hs hv hx hexceeds

theorem mem_signalNames (hs : s ∈ m.signals) : s.name ∈ m.signalNames :=
  List.mem_map_of_mem hs

theorem packSignal_eq_error (hs : s ∈ m.signals) (h : m.packSignal values s = .error f) :
    m.Missing values f ∨ m.Unfit values f := by
  unfold packSignal at h
  split at h
  next hnone =>
    obtain rfl := Except.error.inj h
    exact .inl ⟨mem_signalNames hs, hnone⟩
  next v hv =>
    rcases bind_eq_error.mp h with h | ⟨raw, -, h⟩
    · exact .inr (.of_toRaw hs hv h)
    · rcases bind_eq_error.mp h with h | ⟨positions, -, h⟩
      · obtain ⟨⟨position, hposition, hout⟩, rfl⟩ := Signal.positions_eq_error.mp h
        exact .inr (.outsideFrame hs hposition hout)
      · cases h

theorem packSignals_eq_error {signals : List Signal} (hsignals : ∀ s ∈ signals, s ∈ m.signals)
    (h : m.packSignals values signals = .error f) : m.Missing values f ∨ m.Unfit values f := by
  induction signals with
  | nil => cases h
  | cons s signals ih =>
    rcases bind_eq_error.mp h with h | ⟨payload, -, h⟩
    · exact packSignal_eq_error (hsignals s List.mem_cons_self) h
    · rcases bind_eq_error.mp h with h | ⟨payload', -, h⟩
      · exact ih (fun s hs => hsignals s (List.mem_cons_of_mem _ hs)) h
      · cases h

theorem multiplexerRaw_eq_error (hmultiplexer : ∀ name, m.multiplexer = some name → name ∈ m.signalNames)
    (h : m.multiplexerRaw values = .error f) : m.Missing values f ∨ m.Unfit values f := by
  unfold multiplexerRaw at h
  split at h
  · cases h
  next name hname =>
    obtain ⟨s, hs, hsname⟩ := exists_signal? (hmultiplexer name hname)
    rw [hs] at h
    cases hv : values[name]? with
    | none =>
      rw [hv] at h
      obtain rfl := Except.error.inj h
      exact .inl ⟨hmultiplexer name hname, hv⟩
    | some v =>
      rw [hv] at h
      cases hraw : s.toRaw v with
      | ok raw =>
        simp only [hraw] at h
        cases h
      | error f' =>
        simp only [hraw] at h
        obtain rfl := Except.error.inj h
        exact .inr (.of_toRaw (List.mem_of_find?_eq_some hs) (hsname ▸ hv) hraw)

/-- Packing fails for a value that is missing, or for one that does not fit. -/
theorem encode_eq_error (hmultiplexer : ∀ name, m.multiplexer = some name → name ∈ m.signalNames)
    (h : m.encode values = .error f) : m.Missing values f ∨ m.Unfit values f := by
  rcases bind_eq_error.mp h with h | ⟨multiplexer, -, h⟩
  · exact multiplexerRaw_eq_error hmultiplexer h
  · rcases bind_eq_error.mp h with h | ⟨payload, -, h⟩
    · exact packSignals_eq_error (fun s hs => (List.mem_filter.mp hs).1) h
    · cases h

end Message

/-! ### Entries and messages -/

namespace Database
variable {sources : List Source} {frame : Nat} {name : String} {m : Message}

/-- The frame that is found for a signal is that of a message with the signal. -/
theorem exists_message_of_frameOf? (h : (empty.loadAll sources).frameOf? name = some frame) :
    ∃ m, (empty.loadAll sources).message? frame = some m ∧ name ∈ m.signalNames := by
  have hlists := lists_loadAll sources
  rw [hlists.frameOf?] at h
  obtain ⟨m, hfind, rfl⟩ := Option.map_eq_some_iff.mp h
  have hm : m ∈ listed sources := List.mem_of_find?_eq_some hfind
  refine ⟨m, (hlists.messages m.frame).trans ((find?_frame_eq_some hlists.frames).mpr ⟨hm, rfl⟩), ?_⟩
  simpa using List.find?_some hfind

theorem frame_of_message? (h : (empty.loadAll sources).message? frame = some m) : m.frame = frame := by
  have hlists := lists_loadAll sources
  exact ((find?_frame_eq_some hlists.frames).mp ((hlists.messages frame).symm.trans h)).2

theorem multiplexer_of_message? (h : (empty.loadAll sources).message? frame = some m) :
    ∀ name, m.multiplexer = some name → name ∈ m.signalNames := by
  intro name hname
  obtain ⟨declaration, hdeclaration⟩ := declared_of_message? h
  obtain ⟨s, hs, rfl, -⟩ := Message.multiplexer_of_ofDeclaration hdeclaration hname
  exact Message.mem_signalNames hs

end Database

/-- Every entry names a message of the database that carries its signal. -/
def Database.Carries (d : Database) (t : Table) : Prop :=
  ∀ e ∈ t.entries.toList, ∃ m, d.message? e.frame = some m ∧ e.signal ∈ m.signalNames

namespace Table
variable {d : Database} {t : Table} {l : List (String × Entry)} {updates : List (String × Scalar)}

/-- A batch changes neither the frames nor the signals of entries. -/
theorem carries_applyUpdates (h : Holds t l) (hcarries : d.Carries t) : d.Carries (t.applyUpdates updates).1 := by
  intro e he
  rw [applyUpdates_fst, h.updateAll.entries, List.map_map] at he
  obtain ⟨x, hx, rfl⟩ := List.mem_map.mp he
  rw [Function.comp_apply, settled_frame, settled_signal]
  exact hcarries x.2 (h.entries ▸ List.mem_map_of_mem hx)

theorem carries_build {sources : List Source} {document : Json}
    (h : build document (Database.empty.loadAll sources).frameOf? = .ok t) :
    (Database.empty.loadAll sources).Carries t := by
  intro e he
  rw [(holds_build h).entries] at he
  obtain ⟨x, hx, rfl⟩ := List.mem_map.mp he
  obtain ⟨leaf, -, hdeclared⟩ := List.mem_filterMap.mp hx
  unfold declared? at hdeclared
  split at hdeclared
  next d _ =>
    obtain ⟨frame, hframe, rfl⟩ := Option.map_eq_some_iff.mp hdeclared
    exact Database.exists_message_of_frameOf? hframe
  · cases hdeclared

theorem exists_document_of_ofFile {path : String} {content : Option ByteArray} {frameOf? : String → Option Nat}
    (h : ofFile path content frameOf? = .ok t) : ∃ document, build document frameOf? = .ok t := by
  unfold ofFile at h
  split at h
  · cases h
  · split at h
    · cases h
    · split at h
      · cases h
      next document _ => exact ⟨document, h⟩

/-- The values of a frame have all names of its defaults. -/
theorem getElem?_overlay {name : String} {entries : List Entry} {values : SignalValues}
    (h : (overlay values entries)[name]? = none) : values[name]? = none := by
  refine Std.TreeMap.getElem?_eq_none fun hmem => ?_
  have hover : name ∈ overlay values entries := mem_overlay.mpr (.inl hmem)
  rw [Std.TreeMap.mem_iff_isSome_getElem?, h] at hover
  cases hover

end Table

/-! ### Providers -/

namespace Provider
open Table
variable {p : Provider} {b : Batch} {id : Nat}

/-- A provider as it is put together: a loaded database, and the table of a document with the frames of this
    database. Its defaults can be any. -/
structure Assembled (p : Provider) : Prop where
  loaded : ∃ sources, p.database = Database.empty.loadAll sources
  built : ∃ document, Table.build document p.database.frameOf? = .ok p.table

/-- The provider of the program is put together like this. -/
theorem assembled_of_provider {s : Settings} {database mapping : Option ByteArray}
    (h : Program.provider s database mapping = .ok p) (defaults : Defaults) : Assembled { p with defaults } := by
  obtain ⟨d, hd, h⟩ := bind_eq_ok.mp h
  obtain ⟨t, ht, h⟩ := bind_eq_ok.mp h
  obtain rfl := Except.ok.inj h
  have hloaded : d = Database.empty.loadAll [.file s.database database] := by
    change d = ((Database.empty.loadFile s.database database).toOption.getD Database.empty)
    rw [mapError_eq_ok.mp hd]
    rfl
  exact ⟨⟨_, hloaded⟩, Table.exists_document_of_ofFile (mapError_eq_ok.mp ht)⟩

/-- The provider after some batches. -/
def afterAll (p : Provider) (batches : List Batch) : Provider :=
  batches.foldl (fun p b => (p.handle b).1) p

/-- What batches keep: every entry names a message that carries its signal. -/
structure Grounded (p : Provider) : Prop where
  loaded : ∃ sources, p.database = Database.empty.loadAll sources
  holds : ∃ l, Holds p.table l
  carries : p.database.Carries p.table

theorem Assembled.grounded (assembled : p.Assembled) : p.Grounded := by
  obtain ⟨sources, hsources⟩ := assembled.loaded
  obtain ⟨document, hbuild⟩ := assembled.built
  rw [hsources] at hbuild
  exact ⟨⟨sources, hsources⟩, ⟨_, holds_build hbuild⟩, hsources ▸ carries_build hbuild⟩

theorem Grounded.after (grounded : p.Grounded) (b : Batch) : (p.after b).Grounded := by
  obtain ⟨l, hl⟩ := grounded.holds
  have hholds : Holds (p.after b).table (l.map (settled (targets b))) := by
    rw [Provider.after, applyUpdates_fst]
    exact hl.updateAll
  exact ⟨grounded.loaded, ⟨_, hholds⟩, carries_applyUpdates hl grounded.carries⟩

theorem Grounded.afterAll (grounded : p.Grounded) (batches : List Batch) : (p.afterAll batches).Grounded := by
  induction batches generalizing p with
  | nil => exact grounded
  | cons b batches ih => exact ih (grounded.after b)

/-- A touched frame is the frame of an entry. -/
theorem exists_entry_of_touched (h : id ∈ p.touched b) : ∃ e ∈ p.table.entries.toList, e.frame = id := by
  obtain ⟨u, -, -, -, e, he, rfl⟩ := mem_touched.mp h
  obtain ⟨i, -, hi⟩ := List.mem_filterMap.mp he
  exact ⟨e, Array.mem_toList_iff.mpr (Array.mem_of_getElem? hi), rfl⟩

/-- After any batches, every entry of an assembled provider names a message that carries its signal. If a touched
    frame that has defaults cannot be built, its message is there, and some value does not fit, or a signal of the
    message has no default. -/
theorem faults_of_touched (assembled : p.Assembled) (batches : List Batch) :
    let q := p.afterAll batches
    q.database.Carries q.table ∧
      ∀ b id defaults, id ∈ q.touched b → q.defaults.values? id = some defaults →
        ∃ m values, q.database.message? id = some m ∧ (q.after b).table.frameValues q.defaults id = .ok values ∧
          ∀ f, (q.after b).buildFrame id = .error f →
            m.Unfit values f ∨ ∃ name ∈ m.signalNames, name ∉ defaults ∧ f = .missingValue id name := by
  intro q
  have grounded : q.Grounded := assembled.grounded.afterAll batches
  refine ⟨grounded.carries, fun b id defaults htouched hdefaults => ?_⟩
  obtain ⟨e, he, rfl⟩ := exists_entry_of_touched htouched
  obtain ⟨m, hm, -⟩ := grounded.carries e he
  obtain ⟨sources, hsources⟩ := grounded.loaded
  have hvalues : (q.after b).table.frameValues q.defaults e.frame =
      .ok (overlay defaults ((q.after b).table.entriesOfFrame e.frame)) := by
    rw [frameValues, hdefaults]
  refine ⟨m, _, hm, hvalues, fun f hf => ?_⟩
  have hframe : m.frame = e.frame := Database.frame_of_message? (hsources ▸ hm)
  have hencode : m.encode (overlay defaults ((q.after b).table.entriesOfFrame e.frame)) = .error f := by
    rcases bind_eq_error.mp hf with hf | ⟨values, hok, hf⟩
    · cases hvalues.symm.trans hf
    · obtain rfl := Except.ok.inj (hvalues.symm.trans hok)
      rcases bind_eq_error.mp hf with hf | ⟨data, -, hf⟩
      · exact (Database.encode_of_message? hm _).symm.trans hf
      · cases hf
  rcases Message.encode_eq_error (Database.multiplexer_of_message? (hsources ▸ hm)) hencode with hmissing | hunfit
  · cases hmissing with
    | @intro name hname hnone =>
      refine .inr ⟨name, hname, ?_, by rw [hframe]⟩
      rw [Std.TreeMap.mem_iff_isSome_getElem?, getElem?_overlay hnone]
      exact Bool.false_ne_true
  · exact .inl hunfit

/-- The text and the document that the door lock is put together from. -/
def doorLockText : String :=
  "VERSION \"\"\nNS_ :\nBO_ 258 DoorLock: 1 Vector__XXX\n SG_ Locked : 0|1@1+ (1,0) [0|0] \"\" A\n"

def doorLockDocument : Json :=
  .object [("Vehicle.Cabin.Door.Row1.DriverSide.IsLocked",
    .object [("type", .string "actuator"), ("vss2dbc", .object [("signal", .string "Locked")])])]

theorem assembled_doorLock : doorLock.Assembled where
  loaded := by
    have hmessages : (Message.ofText doorLockText).toOption = some (doorLock.database.message? 258).toList := by
      decide +kernel
    refine ⟨[.text doorLockText], ?_⟩
    rw [Database.loadAll, List.foldl_cons, List.foldl_nil, Database.toOption_load, Source.messages?, hmessages]
    rfl
  built := ⟨doorLockDocument, rfl⟩

/-- The value does not fit the bit, so the touched frame is not built. -/
theorem faults_of_touched_doorLock :
    let b : Batch := [⟨"Vehicle.Cabin.Door.Row1.DriverSide.IsLocked", .target, some (.integer 5)⟩]
    258 ∈ doorLock.touched b ∧ doorLock.defaults.supports 258 = true ∧
      ∃ m values f, doorLock.database.message? 258 = some m ∧ (doorLock.after b).buildFrame 258 = .error f ∧
        m.Unfit values f := by
  intro b
  have htouched : 258 ∈ doorLock.touched b := by decide +kernel
  obtain ⟨-, hfaults⟩ := faults_of_touched assembled_doorLock []
  obtain ⟨m, values, hm, -, herror⟩ := hfaults b 258 _ htouched rfl
  have hnone : ((doorLock.after b).buildFrame 258).toOption.isNone := by decide +kernel
  cases hbuild : (doorLock.after b).buildFrame 258 with
  | ok frame =>
    rw [hbuild] at hnone
    cases hnone
  | error f =>
    rcases herror f hbuild with hunfit | ⟨name, hname, hmissing, -⟩
    · exact ⟨htouched, rfl, m, values, f, hm, rfl, hunfit⟩
    · have hnames : (doorLock.database.message? 258).map Message.signalNames = some ["Locked"] := by decide +kernel
      have hlocked : m.signalNames = ["Locked"] :=
        Option.some.inj ((congrArg (Option.map Message.signalNames) hm).symm.trans hnames)
      obtain rfl := List.mem_singleton.mp (hlocked ▸ hname)
      exact absurd (by decide +kernel) hmissing

end Provider
end SignalBridge
