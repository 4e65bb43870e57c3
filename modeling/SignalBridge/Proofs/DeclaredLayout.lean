import SignalBridge.Proofs.KeptMessages

/-! Where loaded signals lie, against what was declared. A start and a length are kept as far as they fit into 16
    bits, and only then is the length checked. So below `2 ^ 16` the declared numbers are kept as they are and an
    unsupported length is refused, but beyond it a signal may be loaded with other bits than its own. -/

namespace SignalBridge

theorem exists_of_mapM_error {ε α β : Type} {f : α → Except ε β} {l : List α} {e : ε} (h : l.mapM f = .error e) :
    ∃ a ∈ l, f a = .error e := by
  induction l with
  | nil => cases h
  | cons a l ih =>
    rw [List.mapM_cons] at h
    rcases bind_eq_error.mp h with h | ⟨b, -, h⟩
    · exact ⟨a, List.mem_cons_self, h⟩
    · rcases bind_eq_error.mp h with h | ⟨bs, -, h⟩
      · obtain ⟨x, hx, hfx⟩ := ih h
        exact ⟨x, List.mem_cons_of_mem _ hx, hfx⟩
      · cases h

/-! ### One signal -/

namespace Signal

/-- The signal has the declared name and byte order, and of the declared start and length the lowest 16 bits. -/
structure LaidOut (d : Dbc.SignalDeclaration) (s : Signal) : Prop where
  name : s.name = d.name
  order : s.order = d.order
  start : s.start = d.start % bit 16
  length : s.length = d.length % bit 16
  supported : 1 ≤ s.length ∧ s.length ≤ 64

/-- What a declared signal of a message is refused for. -/
def Refused (d : Dbc.SignalDeclaration) (multiplexed : Bool) (f : DatabaseFault) : Prop :=
  (f = .noMultiplexer d.name ∧ (∃ k, d.multiplexing = .selected k) ∧ multiplexed = false) ∨
    (f = .unsupportedLength d.name (d.length % bit 16) ∧ ¬(1 ≤ d.length % bit 16 ∧ d.length % bit 16 ≤ 64))

variable {d : Dbc.SignalDeclaration} {s : Signal} {multiplexed : Bool} {f : DatabaseFault}

theorem laidOut_of_ofDeclaration (h : ofDeclaration d multiplexed = .ok s) : LaidOut d s := by
  obtain ⟨selector, -, hlength, rfl⟩ := ofDeclaration_eq_ok.mp h
  exact ⟨rfl, rfl, rfl, rfl, by dsimp only; omega⟩

/-- Numbers that fit into 16 bits are kept. -/
theorem LaidOut.start_eq (h : LaidOut d s) (hstart : d.start < bit 16) : s.start = d.start :=
  h.start.trans (Nat.mod_eq_of_lt hstart)

theorem LaidOut.length_eq (h : LaidOut d s) (hlength : d.length < bit 16) : s.length = d.length :=
  h.length.trans (Nat.mod_eq_of_lt hlength)

theorem selectorOf_eq_error : selectorOf d multiplexed = .error f ↔
    f = .noMultiplexer d.name ∧ (∃ k, d.multiplexing = .selected k) ∧ multiplexed = false := by
  unfold selectorOf
  cases hmultiplexing : d.multiplexing with
  | selected k =>
    cases multiplexed with
    | true => exact ⟨nofun, fun h => nomatch h.2.2⟩
    | false => exact ⟨fun h => ⟨(Except.error.inj h).symm, ⟨k, rfl⟩, rfl⟩, fun h => congrArg Except.error h.1.symm⟩
  | none | multiplexer => exact ⟨nofun, fun h => nomatch h.2.1⟩
  | selectedMultiplexer _ => exact ⟨nofun, fun h => nomatch h.2.1⟩

theorem refused_of_ofDeclaration (h : ofDeclaration d multiplexed = .error f) : Refused d multiplexed f := by
  rw [ofDeclaration] at h
  rcases bind_eq_error.mp h with h | ⟨selector, -, h⟩
  · exact .inl (selectorOf_eq_error.mp h)
  · dsimp only at h
    split at h
    next hlength => exact .inr ⟨(Except.error.inj h).symm, by omega⟩
    next => cases h

/-- A signal for which there is something to refuse is refused. -/
theorem exists_error_of_refused (h : Refused d multiplexed f) : ∃ f, ofDeclaration d multiplexed = .error f := by
  cases hresult : ofDeclaration d multiplexed with
  | error f => exact ⟨f, rfl⟩
  | ok s =>
    obtain ⟨selector, hselector, hlength, -⟩ := ofDeclaration_eq_ok.mp hresult
    rcases h with ⟨-, hmultiplexing, hmultiplexed⟩ | ⟨-, hunsupported⟩
    · cases hselector.symm.trans (selectorOf_eq_error.mpr ⟨rfl, hmultiplexing, hmultiplexed⟩)
    · omega

end Signal

/-! ### Texts -/

namespace Message
variable {text : String} {declarations : List Dbc.MessageDeclaration} {declaration : Dbc.MessageDeclaration}
  {m : Message} {f : DatabaseFault}

theorem laidOut_of_ofDeclaration (h : ofDeclaration declaration = .ok m) :
    List.Forall₂ Signal.LaidOut declaration.signals m.signals := by
  obtain ⟨signals, hsignals, rfl⟩ := ofDeclaration_eq_ok.mp h
  exact (forall₂_of_mapM hsignals).imp fun _ _ => Signal.laidOut_of_ofDeclaration

theorem refused_of_ofDeclaration (h : ofDeclaration declaration = .error f) :
    ∃ d ∈ declaration.signals, Signal.Refused d (multiplexerOf declaration).isSome f := by
  rcases bind_eq_error.mp h with h | ⟨signals, -, h⟩
  · obtain ⟨d, hd, hfault⟩ := exists_of_mapM_error h
    exact ⟨d, hd, Signal.refused_of_ofDeclaration hfault⟩
  · cases h

theorem not_ok_of_refused {d : Dbc.SignalDeclaration} (hd : d ∈ declaration.signals)
    (h : Signal.Refused d (multiplexerOf declaration).isSome f) : ofDeclaration declaration ≠ .ok m := by
  intro hok
  obtain ⟨signals, hsignals, -⟩ := ofDeclaration_eq_ok.mp hok
  obtain ⟨s, -, hs⟩ := exists_mem_of_mapM hsignals hd
  obtain ⟨f', hf'⟩ := Signal.exists_error_of_refused h
  cases hs.symm.trans hf'

/-- The signals of a text lie as declared, but of starts and lengths only the lowest 16 bits count. A text whose
    declarations are read to its end is refused exactly for a signal with an unsupported length or without the
    multiplexer that it needs, and nothing that is below `2 ^ 16` is changed or let pass. -/
theorem layouts_of_text (hread : declarations? text = some declarations) :
    (∀ messages, ofText text = .ok messages →
      List.Forall₂ (fun declaration m => List.Forall₂ (fun d s => Signal.LaidOut d s ∧
        (d.start < bit 16 → s.start = d.start) ∧ (d.length < bit 16 → s.length = d.length))
          declaration.signals m.signals) declarations messages) ∧
    (∀ f, ofText text = .error f → ∃ declaration ∈ declarations, ∃ d ∈ declaration.signals,
      Signal.Refused d (multiplexerOf declaration).isSome f) ∧
    (∀ declaration ∈ declarations, ∀ d ∈ declaration.signals, ∀ f,
      Signal.Refused d (multiplexerOf declaration).isSome f → ∃ f, ofText text = .error f) ∧
    (∀ declaration ∈ declarations, ∀ d ∈ declaration.signals, d.length < bit 16 → d.length = 0 ∨ 64 < d.length →
      ∃ f, ofText text = .error f) := by
  have hrefused : ∀ declaration ∈ declarations, ∀ d ∈ declaration.signals, ∀ f,
      Signal.Refused d (multiplexerOf declaration).isSome f → ∃ f, ofText text = .error f := by
    intro declaration hdeclaration d hd f h
    cases hresult : ofText text with
    | error f' => exact ⟨f', rfl⟩
    | ok messages =>
      rw [ofText_of_declarations? hread] at hresult
      obtain ⟨m, -, hm⟩ := exists_mem_of_mapM hresult hdeclaration
      exact absurd hm (not_ok_of_refused hd h)
  refine ⟨fun messages h => ?_, fun f h => ?_, hrefused, fun declaration hdeclaration d hd hsmall hlength => ?_⟩
  · rw [ofText_of_declarations? hread] at h
    refine (forall₂_of_mapM h).imp fun declaration m hm => ?_
    exact (laidOut_of_ofDeclaration hm).imp fun d s hs => ⟨hs, hs.start_eq, hs.length_eq⟩
  · rw [ofText_of_declarations? hread] at h
    obtain ⟨declaration, hdeclaration, hfault⟩ := exists_of_mapM_error h
    exact ⟨declaration, hdeclaration, refused_of_ofDeclaration hfault⟩
  · refine hrefused declaration hdeclaration d hd _ (.inr ⟨rfl, ?_⟩)
    rw [Nat.mod_eq_of_lt hsmall]
    omega

/-- A message of eight bytes with one signal, declared by its start and length. -/
def oneSignalText (layout : String) : String :=
  "VERSION \"\"\nNS_ :\nBO_ 5 M: 8 X\n SG_ S : " ++ layout ++ " (1,0) [0|0] \"\" X\n"

theorem layouts_of_text_swapped : ∃ declarations messages,
    declarations? (oneSignalText "7|64@0+") = some declarations ∧ ofText (oneSignalText "7|64@0+") = .ok messages ∧
      messages.map (·.signals.map fun s => (s.start, s.length, s.order)) = [[(7, 64, .big)]] ∧
        List.Forall₂ (fun declaration m => List.Forall₂ Signal.LaidOut declaration.signals m.signals)
          declarations messages := by
  have hread : (declarations? (oneSignalText "7|64@0+")).isSome = true := by decide +kernel
  have hload : (ofText (oneSignalText "7|64@0+")).toOption.map
      (·.map fun m => m.signals.map fun s => (s.start, s.length, s.order)) = some [[(7, 64, .big)]] := by
    decide +kernel
  obtain ⟨declarations, hdeclarations⟩ := Option.isSome_iff_exists.mp hread
  obtain ⟨messages, hmessages, hlayouts⟩ := Option.map_eq_some_iff.mp hload
  have hok := toOption_eq_some.mp hmessages
  have hlaidOut := (layouts_of_text hdeclarations).1 messages hok
  exact ⟨declarations, messages, hdeclarations, hok, hlayouts, hlaidOut.imp fun _ _ h => h.imp fun _ _ h => h.1⟩

/-- A start of 65540 and a length of 65544 are loaded as the 8 bits from bit 4. -/
theorem wide_layout_is_cut : ∃ declarations messages,
    declarations? (oneSignalText "65540|65544@1+") = some declarations ∧
      ofText (oneSignalText "65540|65544@1+") = .ok messages ∧
        declarations.map (·.signals.map fun d => (d.start, d.length)) = [[(65540, 65544)]] ∧
          messages.map (·.signals.map fun s => (s.start, s.length)) = [[(4, 8)]] := by
  have hread : (declarations? (oneSignalText "65540|65544@1+")).map
      (·.map fun m => m.signals.map fun d => (d.start, d.length)) = some [[(65540, 65544)]] := by
    decide +kernel
  have hload : (ofText (oneSignalText "65540|65544@1+")).toOption.map
      (·.map fun m => m.signals.map fun s => (s.start, s.length)) = some [[(4, 8)]] := by
    decide +kernel
  obtain ⟨declarations, hdeclarations, hdeclared⟩ := Option.map_eq_some_iff.mp hread
  obtain ⟨messages, hmessages, hlayouts⟩ := Option.map_eq_some_iff.mp hload
  exact ⟨declarations, messages, hdeclarations, toOption_eq_some.mp hmessages, hdeclared, hlayouts⟩

end Message
end SignalBridge
