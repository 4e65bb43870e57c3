import SignalBridge.Outcome
import SignalBridge.Proofs.MessageList

/-! Databases as they are loaded: from texts and files, in any order, some of which may be refused. What is
    found then is what the list of the messages of the other ones says. Every loaded message has its
    multiplexer among the signals that are always there. -/

namespace SignalBridge

/-! ### Declared messages -/

theorem Signal.ofDeclaration_eq_ok {d : Dbc.SignalDeclaration} {multiplexed : Bool} {s : Signal} :
    ofDeclaration d multiplexed = .ok s ↔ ∃ selector, selectorOf d multiplexed = .ok selector ∧
      ¬(d.length % bit 16 = 0 ∨ 64 < d.length % bit 16) ∧
        s = { name := d.name, start := d.start % bit 16, length := d.length % bit 16, order := d.order
              signed := d.signed, factor := d.factor, offset := d.offset, least := d.least, greatest := d.greatest
              unit := if d.unit.isEmpty then none else some d.unit, selector } := by
  rw [ofDeclaration, bind_eq_ok]
  refine exists_congr fun selector => and_congr_right fun _ => ?_
  dsimp only
  split
  case isTrue hlength => exact ⟨nofun, fun h => absurd hlength h.1⟩
  case isFalse hlength => exact ⟨fun h => ⟨hlength, (Except.ok.inj h).symm⟩, fun h => congrArg Except.ok h.2.symm⟩

namespace Message
variable {d : Dbc.MessageDeclaration} {declarations : List Dbc.MessageDeclaration} {m : Message} {messages : List Message}
  {name text : String}

theorem ofDeclaration_eq_ok : ofDeclaration d = .ok m ↔
    ∃ signals, d.signals.mapM (Signal.ofDeclaration · (multiplexerOf d).isSome) = .ok signals ∧
      m = { frame := d.identifier % bit 31, extended := bit 31 ≤ d.identifier, name := d.name, size := d.size
            sender := d.sender, signals, multiplexer := multiplexerOf d } := by
  rw [ofDeclaration, bind_eq_ok]
  refine exists_congr fun signals => and_congr_right fun _ => ?_
  exact ⟨fun h => (Except.ok.inj h).symm, fun h => congrArg Except.ok h.symm⟩

/-- The multiplexer of a declared message is one of the signals that are always there. -/
theorem multiplexer_of_ofDeclaration (h : ofDeclaration d = .ok m) (hname : m.multiplexer = some name) :
    ∃ s ∈ m.signals, s.name = name ∧ s.selector = none := by
  obtain ⟨signals, hsignals, rfl⟩ := ofDeclaration_eq_ok.mp h
  obtain ⟨declaration, hdeclaration, rfl⟩ := Option.map_eq_some_iff.mp hname
  obtain ⟨s, hs, hsignal⟩ := exists_mem_of_mapM hsignals (List.mem_of_find?_eq_some hdeclaration)
  obtain ⟨selector, hselector, -, rfl⟩ := Signal.ofDeclaration_eq_ok.mp hsignal
  have hmultiplexing : declaration.multiplexing = .multiplexer := by simpa using List.find?_some hdeclaration
  rw [Signal.selectorOf, hmultiplexing] at hselector
  exact ⟨_, hs, rfl, (Except.ok.inj hselector).symm⟩

/-- The declarations of a text that is read to its end. -/
def declarations? (text : String) : Option (List Dbc.MessageDeclaration) :=
  match Dbc.document (.ofList text.toList) with
  | .found declarations rest => if rest.size = 0 then some declarations else none
  | .refused | .broken => none

theorem ofText_of_declarations? (h : declarations? text = some declarations) :
    ofText text = declarations.mapM ofDeclaration := by
  unfold declarations? at h
  split at h
  next hread =>
    split at h
    next hend =>
      obtain rfl := Option.some.inj h
      rw [ofText, hread]
      exact if_pos hend
    next => cases h
  next => cases h
  next => cases h

theorem ofText_eq_ok : ofText text = .ok messages ↔
    ∃ declarations, declarations? text = some declarations ∧ declarations.mapM ofDeclaration = .ok messages := by
  constructor
  · intro h
    cases hread : declarations? text with
    | some declarations => exact ⟨declarations, rfl, (ofText_of_declarations? hread).symm.trans h⟩
    | none =>
      unfold declarations? at hread
      unfold ofText at h
      split at h
      next hfound =>
        split at h
        next hend =>
          rw [hfound] at hread
          exact absurd ((if_pos hend).symm.trans hread) nofun
        next => cases h
      next => cases h
      next => cases h
  · rintro ⟨declarations, hread, h⟩
    exact (ofText_of_declarations? hread).trans h

/-- Every message of a text was declared. -/
theorem declared_of_ofText (h : ofText text = .ok messages) (hm : m ∈ messages) : ∃ d, ofDeclaration d = .ok m := by
  obtain ⟨declarations, -, h⟩ := ofText_eq_ok.mp h
  obtain ⟨d, -, hd⟩ := exists_of_mem_mapM h hm
  exact ⟨d, hd⟩

end Message

/-! ### Loads -/

/-- What a database is loaded from: a text, or a file with the bytes that it has if it is there. -/
inductive Source
  | text (s : String)
  | file (path : String) (content : Option ByteArray)

namespace Source

/-- The database with a source added. -/
def load (d : Database) : Source → Except Fault Database
  | text s => d.load s
  | file path content => d.loadFile path content

/-- The messages that a source declares, if it can be read. -/
def messages? : Source → Option (List Message)
  | text s => (Message.ofText s).toOption
  | file _ content => content.bind fun bytes => (Message.ofText (Database.textOfBytes bytes)).toOption

end Source

namespace Database
variable {d : Database} {l : List Message} {sources : List Source} {m : Message} {frame : Nat} {name : String}

/-- Loads sources in turn. One that is refused leaves the database as it is. -/
def loadAll (d : Database) (sources : List Source) : Database :=
  sources.foldl (fun d s => (s.load d).toOption.getD d) d

/-- The messages of the sources that can be read, listed in order. -/
def listed (sources : List Source) : List Message :=
  (sources.filterMap Source.messages?).flatten.foldl relist []

theorem toOption_load (d : Database) (s : Source) :
    (s.load d).toOption = s.messages?.map fun messages => messages.foldl add d := by
  cases s with
  | text s =>
    simp only [Source.load, Database.load, Source.messages?]
    cases Message.ofText s <;> rfl
  | file path content =>
    cases content with
    | none => rfl
    | some bytes =>
      simp only [Source.load, Database.loadFile, Source.messages?, Option.bind_some]
      cases Message.ofText (textOfBytes bytes) <;> rfl

theorem Lists.loadAll (h : Lists d l) (sources : List Source) :
    Lists (d.loadAll sources) ((sources.filterMap Source.messages?).flatten.foldl relist l) := by
  induction sources generalizing d l with
  | nil => exact h
  | cons s sources ih =>
    have hstep : d.loadAll (s :: sources) = ((s.load d).toOption.getD d).loadAll sources := rfl
    rw [hstep, toOption_load]
    cases hs : s.messages? with
    | none =>
      rw [List.filterMap_cons_none hs]
      exact ih h
    | some messages =>
      rw [List.filterMap_cons_some hs, List.flatten_cons, List.foldl_append]
      exact ih (h.addAll messages)

theorem lists_loadAll (sources : List Source) : Lists (empty.loadAll sources) (listed sources) :=
  lists_empty.loadAll sources

/-- After any loads the database finds what the list of messages says: by frame the message that has it, by
    the name of a signal the first message with such a signal. A message that is declared again moves to
    the end of the list, and a source that is refused adds nothing to it. -/
theorem found_after_loads (sources : List Source) :
    let d := empty.loadAll sources
    let l := listed sources
    (l.map (·.frame)).Nodup ∧
      (∀ frame, d.message frame =
        match l.find? (·.frame == frame) with
        | some m => .ok m
        | none => .error (.messageNotFound frame)) ∧
      (∀ name, d.frameOf? name = (l.find? (·.signalNames.contains name)).map (·.frame)) ∧
      (∀ name, d.frameOf? name = none ↔ ∀ m ∈ l, name ∉ m.signalNames) ∧
      (∀ frame, d.isExtended frame = (l.find? (·.frame == frame)).any (·.extended)) ∧
      d.messageCount = l.length ∧ d.signalCount = (l.map (·.signals.length)).sum := by
  intro d l
  have h : Lists d l := lists_loadAll sources
  refine ⟨h.frames, fun frame => h.message, fun name => h.frameOf?, fun name => ?_, fun frame => ?_,
    h.messageCount, h.signalCount⟩
  · rw [h.frameOf?, Option.map_eq_none_iff, List.find?_eq_none]
    simp only [List.contains_iff_mem]
  · rw [← h.messages]
    rfl

/-- A text with one message, whose signals have the given lengths. -/
def messageText (frame name : String) (signals : List (String × String)) : String :=
  "VERSION \"\"\nNS_ :\nBO_ " ++ frame ++ " " ++ name ++ ": 8 X\n" ++ String.join (signals.map fun (name, length) =>
    " SG_ " ++ name ++ " : 0|" ++ length ++ "@1+ (1,0) [0|0] \"\" X\n")

/-- Two messages share the signal `Speed`. The third text is refused since its signal has no bits. The last one declares
    the first message again, without the signal, which is then found in the other message. -/
theorem found_after_loads_again :
    let sources : List Source := [.text (messageText "5" "First" [("Speed", "8"), ("Gear", "4")]),
      .text (messageText "6" "Second" [("Speed", "8")]), .text (messageText "7" "Third" [("Speed", "0")]),
      .file "again.dbc" (some (messageText "5" "Again" [("Door", "1")]).toUTF8)]
    let d := empty.loadAll sources
    (listed sources).map (fun m => (m.frame, m.name)) = [(6, "Second"), (5, "Again")] ∧
      (d.message 5).toOption.map (·.name) = some "Again" ∧ d.message 7 = .error (.messageNotFound 7) ∧
      d.frameOf? "Speed" = some 6 ∧ d.frameOf? "Gear" = none ∧ d.messageCount = 2 ∧ d.signalCount = 2 := by
  intro sources d
  have hlisted : (listed sources).map (fun m => (m.frame, m.name, m.signalNames, m.signals.length)) =
      [(6, "Second", ["Speed"], 1), (5, "Again", ["Door"], 1)] := by
    decide +kernel
  obtain ⟨-, hmessage, hframe, -, -, hmessages, hsignals⟩ := found_after_loads sources
  obtain ⟨second, rest, hrest, hsecond, hlisted⟩ := List.map_eq_cons_iff.mp hlisted
  obtain ⟨again, after, rfl, hagain, hafter⟩ := List.map_eq_cons_iff.mp hlisted
  obtain rfl := List.map_eq_nil_iff.mp hafter
  simp only [Prod.mk.injEq] at hsecond hagain
  rw [hrest] at hmessage hframe hmessages hsignals
  simp only [d, hrest, hmessage, hframe, hmessages, hsignals]
  simp [hsecond, hagain, Except.toOption]

/-! ### Loaded messages -/

theorem mem_foldl_relist {messages : List Message} (hm : m ∈ messages.foldl relist l) : m ∈ messages ∨ m ∈ l := by
  induction messages generalizing l with
  | nil => exact Or.inr hm
  | cons x messages ih =>
    rcases ih hm with hm | hm
    · exact Or.inl (List.mem_cons_of_mem _ hm)
    · rcases List.mem_append.mp hm with hm | hm
      · exact Or.inr (List.mem_filter.mp hm).1
      · exact Or.inl (List.mem_singleton.mp hm ▸ List.mem_cons_self)

/-- Every message of a loaded database was declared. -/
theorem declared_of_message? (hm : (empty.loadAll sources).message? frame = some m) :
    ∃ declaration, Message.ofDeclaration declaration = .ok m := by
  have hfind : (listed sources).find? (·.frame == frame) = some m := (lists_loadAll sources).messages frame ▸ hm
  rcases mem_foldl_relist (List.mem_of_find?_eq_some hfind) with hlisted | hnil
  · obtain ⟨messages, hmessages, hm⟩ := List.mem_flatten.mp hlisted
    obtain ⟨s, -, hs⟩ := List.mem_filterMap.mp hmessages
    cases s with
    | text s =>
      exact Message.declared_of_ofText (toOption_eq_some.mp hs) hm
    | file path content =>
      obtain ⟨bytes, -, hs⟩ := Option.bind_eq_some_iff.mp hs
      exact Message.declared_of_ofText (toOption_eq_some.mp hs) hm
  · cases hnil

end Database

end SignalBridge
