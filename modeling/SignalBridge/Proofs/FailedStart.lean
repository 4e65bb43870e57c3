import SignalBridge.Outcome
import SignalBridge.World

/-! What a run that fails leaves behind. The settings, the database and the mapping are read before the log is
    opened, so that a fault of theirs changes no file. The updates are opened only after the log: if they cannot
    be, the log has been emptied. -/

namespace SignalBridge.World
open Program
variable {w w' : World} {a : CommandLine.Arguments} {arguments : List String} {output : Option String}
  {log file : FilePath}

/-! ### Files -/

theorem lookup_filter_bne (files : List (FilePath × ByteArray)) (h : file ≠ log) :
    (files.filter (·.1 != log)).lookup file = files.lookup file := by
  induction files with
  | nil => rfl
  | cons x files ih =>
    by_cases hx : x.1 = log
    · rw [List.filter_cons_of_neg (by simp [hx]), ih, List.lookup_cons, beq_eq_false_iff_ne.mpr (hx ▸ h)]
    · rw [List.filter_cons_of_pos (by simpa using hx), List.lookup_cons, List.lookup_cons, ih]

theorem content?_write (w : World) (log file : FilePath) (bytes : ByteArray) :
    (w.write log bytes).content? file = if file = log then some bytes else w.content? file := by
  unfold content? write
  rw [List.lookup_cons]
  by_cases h : file = log
  · rw [beq_iff_eq.mpr h, if_pos h]
  · rw [beq_eq_false_iff_ne.mpr h, if_neg h]
    exact lookup_filter_bne w.files h

/-- The file that the log goes to, if it goes to one. -/
def logFile? (w : World) (output : Option String) : Option FilePath :=
  match output.bind w.place? with
  | some (.file log) => some log
  | _ => none

theorem run_openLog (path : String) (w : World) :
    (host.openLog (some path)).run w =
      match w.place? path with
      | some (.file f) => (some fun text => modify fun w => w.append f text, w.write f .empty)
      | some .nothing | some .standardError => (some fun _ => return, w)
      | some .standardOutput => (some print, w)
      | _ => (none, w) := by
  change (match w.place? path with
    | some (.file f) => do
      set (w.write f .empty)
      return some fun text => modify fun w => w.append f text
    | some .nothing | some .standardError => return some fun _ => return
    | some .standardOutput => return some print
    | _ => return none : StateM World (Option (String → StateM World Unit))).run w = _
  split <;> rfl

theorem openLog_of_file (h : w.logFile? output = some log) :
    ∃ write, (host.openLog output).run w = (some write, w.write log .empty) := by
  cases output with
  | none => cases h
  | some path =>
    have hplace : w.place? path = some (.file log) := by
      unfold logFile? at h
      split at h
      next hplace => exact Option.some.inj h ▸ hplace
      · cases h
    refine ⟨fun text => modify fun w => w.append log text, ?_⟩
    rw [run_openLog, hplace]

/-- Opening the log changes nothing, or it empties the file that the log goes to. -/
theorem openLog_inv {write : Option (String → StateM World Unit)} (h : (host.openLog output).run w = (write, w')) :
    w' = w ∨ ∃ log, w.logFile? output = some log ∧ write.isSome ∧ w' = w.write log .empty := by
  cases output with
  | none => exact .inl (Prod.mk.inj h).2.symm
  | some path =>
    rw [run_openLog] at h
    split at h
    next f hplace =>
      obtain ⟨rfl, rfl⟩ := Prod.mk.inj h
      refine .inr ⟨f, ?_, rfl, rfl⟩
      rw [logFile?, Option.bind_some, hplace]
    all_goals exact .inl (Prod.mk.inj h).2.symm

/-! ### Steps of a run -/

section
variable {ε α β : Type}

theorem run_bind (x : ExceptT ε (StateM World) α) (f : α → ExceptT ε (StateM World) β) (w : World) :
    (x >>= f).run.run w =
      match x.run.run w with
      | (.ok a, w') => (f a).run.run w'
      | (.error e, w') => (.error e, w') := by
  change (match x.run.run w with | (r, w') => (ExceptT.bindCont f r).run w') = _
  rcases x.run.run w with ⟨_ | _, w'⟩ <;> rfl

theorem run_ofExcept (x : Except ε α) (w : World) :
    (MonadExcept.ofExcept x : ExceptT ε (StateM World) α).run.run w = (x, w) := by
  cases x <;> rfl

theorem run_liftM (x : StateM World α) (w : World) :
    (liftM x : ExceptT ε (StateM World) α).run.run w = (.ok (x.run w).1, (x.run w).2) := rfl

theorem run_read (path : String) (w : World) : (host.read path).run w = (w.read? path, w) := rfl

theorem run_forLines (path : Option String) (s : α) (take : α → List UInt8 → StateM World (ForInStep α))
    (w : World) :
    (host.forLines path s take).run w =
      match w.lines? path with
      | none => (none, w)
      | some lines => (some ((forLines take lines s).run w).1, ((forLines take lines s).run w).2) := by
  change (match w.lines? path with
    | none => pure none
    | some lines => return some (← forLines take lines s) : StateM World (Option α)).run w = _
  cases w.lines? path <;> rfl

end

/-! ### Runs -/

/-- The settings that a run has in a world. -/
def settings (w : World) (a : CommandLine.Arguments) : Except RunFault Settings :=
  ((Program.settings host a).run.run w).1

/-- Settling what to do changes nothing. -/
theorem run_settings (w : World) (a : CommandLine.Arguments) :
    (Program.settings host a).run.run w = (w.settings a, w) := by
  unfold settings Program.settings
  cases a.config with
  | none => simp only [pure_bind, run_ofExcept]
  | some path =>
    simp only [run_bind, run_liftM, run_read, run_ofExcept]
    cases (Choices.ofFile path (w.read? path)).mapError RunFault.settings <;> rfl

/-- How a run ends. Up to the log it only reads, and the updates are opened in the world with the log. -/
theorem run_run (w : World) (a : CommandLine.Arguments) :
    (run host a).run.run w =
      match w.settings a with
      | .error f => (.error f, w)
      | .ok s =>
        match provider s (w.read? s.database) (w.read? s.mapping) with
        | .error f => (.error f, w)
        | .ok p =>
          match (host.openLog s.output).run w with
          | (none, w') => (.error (.log (s.output.getD "")), w')
          | (some write, w') =>
            match w'.lines? s.updates with
            | none => (.error (.updates (s.updates.getD "")), w')
            | some lines => (.ok (), ((forLines (takeLine host write s.interface) lines p).run w').2) := by
  unfold run
  simp only [run_bind, run_settings, run_liftM, run_read, run_ofExcept]
  cases w.settings a with
  | error f => rfl
  | ok s =>
    dsimp only
    cases provider s (w.read? s.database) (w.read? s.mapping) with
    | error f => rfl
    | ok p =>
      dsimp only
      rcases (host.openLog s.output).run w with ⟨_ | write, w'⟩
      · rfl
      · simp only [run_bind, run_liftM, run_forLines]
        cases w'.lines? s.updates <;> rfl

/-! ### Programs -/

theorem exec_of_none (h : CommandLine.parse? arguments = none) : w.exec arguments = (misused, w) := by
  unfold World.exec Program.exec
  rw [h]
  rfl

/-- Giving help or the version does not fail. -/
theorem exec_of_shown (h : CommandLine.parse? arguments = some .help ∨ CommandLine.parse? arguments = some .version) :
    (w.exec arguments).1 = 0 := by
  unfold World.exec Program.exec
  rcases h with h | h
  all_goals
    rw [h]
    rfl

theorem exec_of_ok (hrequest : CommandLine.parse? arguments = some (.run a))
    (hrun : (Program.run host a).run.run w = (.ok (), w')) : w.exec arguments = (0, w') := by
  unfold World.exec Program.exec
  rw [hrequest, StateT.run_bind, hrun]
  rfl

theorem exec_of_error {f : RunFault} (hrequest : CommandLine.parse? arguments = some (.run a))
    (hrun : (Program.run host a).run.run w = (.error f, w')) : w.exec arguments = (failed, w') := by
  unfold World.exec Program.exec
  rw [hrequest, StateT.run_bind, hrun]
  rfl

/-- A run has all that it needs but the updates. When it finds that they cannot be opened, it has emptied its
    log. -/
inductive StoppedLate (w : World) (a : CommandLine.Arguments) (log : FilePath) : Prop
  | intro {s : Settings} {p : Provider} (hsettings : w.settings a = .ok s)
    (hprovider : provider s (w.read? s.database) (w.read? s.mapping) = .ok p)
    (hlog : w.logFile? s.output = some log) (hupdates : (w.write log .empty).lines? s.updates = none)

theorem StoppedLate.run (h : w.StoppedLate a log) :
    ∃ f, (Program.run host a).run.run w = (.error f, w.write log .empty) := by
  obtain ⟨hsettings, hprovider, hlog, hupdates⟩ := h
  obtain ⟨write, hopen⟩ := openLog_of_file hlog
  simp only [run_run, hsettings, hprovider, hopen, hupdates]
  exact ⟨_, rfl⟩

/-- A run that fails has changed nothing, or it was stopped late. -/
theorem run_eq_error {f : RunFault} (h : (Program.run host a).run.run w = (.error f, w')) :
    w' = w ∨ ∃ log, w.StoppedLate a log := by
  rw [run_run] at h
  split at h
  next => exact .inl (Prod.mk.inj h).2.symm
  next s hsettings =>
    split at h
    next => exact .inl (Prod.mk.inj h).2.symm
    next p hprovider =>
      split at h
      next w₁ hopen =>
        obtain rfl := (Prod.mk.inj h).2
        rcases openLog_inv hopen with hsame | ⟨log, -, hwrite, -⟩
        · exact .inl hsame
        · cases hwrite
      next write w₁ hopen =>
        split at h
        next hupdates =>
          obtain rfl := (Prod.mk.inj h).2
          rcases openLog_inv hopen with hsame | ⟨log, hlog, -, rfl⟩
          · exact .inl hsame
          · exact .inr ⟨log, hsettings, hprovider, hlog, hupdates⟩
        next => cases (Prod.mk.inj h).1

/-- A program that fails leaves the world as it was, except when a run is stopped late. Then the log is empty, and
    the other files are as they were. -/
theorem exec_failed (w : World) (arguments : List String) :
    ((w.exec arguments).1 ≠ 0 →
        (∀ a log, CommandLine.parse? arguments = some (.run a) → ¬w.StoppedLate a log) →
          (w.exec arguments).2 = w) ∧
      ∀ a log, CommandLine.parse? arguments = some (.run a) → w.StoppedLate a log →
        (w.exec arguments).1 = failed ∧
          ∀ file, (w.exec arguments).2.content? file = if file = log then some .empty else w.content? file := by
  refine ⟨fun hcode hlate => ?_, fun a log hrequest hlate => ?_⟩
  · cases hrequest : CommandLine.parse? arguments with
    | none => rw [exec_of_none hrequest]
    | some request =>
      cases request with
      | run a =>
        rcases hrun : (Program.run host a).run.run w with ⟨f | _, w'⟩
        · rw [exec_of_error hrequest hrun]
          rcases run_eq_error hrun with hsame | ⟨log, hstopped⟩
          · exact hsame
          · exact absurd hstopped (hlate a log hrequest)
        · rw [exec_of_ok hrequest hrun] at hcode
          exact absurd rfl hcode
      | help => exact absurd (exec_of_shown (.inl hrequest)) hcode
      | version => exact absurd (exec_of_shown (.inr hrequest)) hcode
  · obtain ⟨f, hrun⟩ := hlate.run
    rw [exec_of_error hrequest hrun]
    exact ⟨rfl, fun file => content?_write w log file .empty⟩

/-- A database without messages, a mapping without signals, and the log of an earlier run. -/
def recorded : World where
  files :=
    [(["file.dbc"], "VERSION \"\"\nNS_ :\n".toUTF8), (["map.json"], "\x7b\x7d".toUTF8),
      (["frames.log"], "(0.000000) vcan0 102#00\n".toUTF8)]
  input := .empty
  output := ""

/-- A run with the given database and with updates that are not there. -/
def withoutUpdates (database : String) : List String :=
  ["--dbc", database, "-m", "map.json", "-u", "missing.jsonl", "-o", "frames.log"]

/-- What it asks for. -/
def withoutUpdatesArguments (database : String) : CommandLine.Arguments where
  config := none
  choices := ⟨some database, some "map.json", some "missing.jsonl", none, some "frames.log"⟩
  quiet := false

/-- If the database is missing as well, the log is kept, and otherwise it is emptied. -/
theorem exec_failed_recorded :
    (recorded.exec (withoutUpdates "missing.dbc")).2 = recorded ∧
      (recorded.exec (withoutUpdates "file.dbc")).1 = failed ∧
      (recorded.exec (withoutUpdates "file.dbc")).2.content? ["frames.log"] = some .empty := by
  obtain ⟨hkept, -⟩ := exec_failed recorded (withoutUpdates "missing.dbc")
  obtain ⟨-, hlost⟩ := exec_failed recorded (withoutUpdates "file.dbc")
  refine ⟨hkept (by decide +kernel) fun a log hrequest hlate => ?_, ?_⟩
  · have harguments : CommandLine.parse? (withoutUpdates "missing.dbc") =
        some (.run (withoutUpdatesArguments "missing.dbc")) := by decide +kernel
    obtain ⟨hsettings, hprovider, -, -⟩ := hlate
    obtain rfl := CommandLine.Request.run.inj (Option.some.inj (harguments.symm.trans hrequest))
    obtain rfl := Except.ok.inj hsettings
    cases hprovider
  · let s : Settings := ⟨"file.dbc", "map.json", some "missing.jsonl", "vcan0", some "frames.log"⟩
    have hready : (provider s (recorded.read? "file.dbc") (recorded.read? "map.json")).toOption.isSome := by
      decide +kernel
    obtain ⟨p, hprovider⟩ := Option.isSome_iff_exists.mp hready
    have hlate : recorded.StoppedLate (withoutUpdatesArguments "file.dbc") ["frames.log"] :=
      .intro (s := s) rfl (toOption_eq_some.mp hprovider) (by decide +kernel) (by decide +kernel)
    obtain ⟨hcode, hcontent⟩ := hlost _ _ (by decide +kernel) hlate
    exact ⟨hcode, hcontent ["frames.log"]⟩

/-- The program fails, and the log of the earlier run is gone. -/
theorem recorded_log_is_lost :
    (recorded.exec (withoutUpdates "file.dbc")).1 ≠ 0 ∧
      recorded.logFile? (some "frames.log") = some ["frames.log"] ∧
      recorded.content? ["frames.log"] = some "(0.000000) vcan0 102#00\n".toUTF8 ∧
      (recorded.exec (withoutUpdates "file.dbc")).2.content? ["frames.log"] = some .empty := by
  decide +kernel

end SignalBridge.World
