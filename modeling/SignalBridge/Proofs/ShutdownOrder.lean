import SignalBridge.Proofs.LoopActs

/-! Runs as executions of the loop. Under any schedule a run performs acts in an order that the loop allows, until
    the loop stops. So what holds of the loop in every order of acts and events holds of every run: shutdown is
    observed between batches only, what was taken is handled completely, and nothing that was not taken is lost. -/

namespace SignalBridge
namespace Provider
open Shutdown Loop

/-! ### Performing acts -/

namespace Run
variable {m : Type → Type} [Monad m]

/-- The run after a delivery is taken, before its frames are offered. -/
def begun (r : Run) (d : Delivery) : Run :=
  { r with
    provider := (r.provider.taking d).1
    stats :=
      match d with
      | .ok _ => { r.stats with batches := r.stats.batches + 1 }
      | .error _ => { r.stats with failed := r.stats.failed + 1 }
    untaken := r.untaken.tail }

/-- The run after some more frames were accepted. -/
def sentAlso (r : Run) (frames : List Frame) : Run :=
  { r with stats := { r.stats with sent := r.stats.sent + frames.length }, frames := r.frames ++ frames }

/-- Performs an act, with a sink that may act in any way on a frame it is offered. -/
def perform (send : Frame → m Bool) (r : Run) : Act → m Run
  | .took d => return r.begun d
  | .offered f => do return if ← send f then r.sentAlso [f] else r
  | .event _ | .looked _ | .woken | .ended => return r

theorem sentAlso_nil (r : Run) : r.sentAlso [] = r := by
  simp [sentAlso]

theorem sentAlso_sentAlso (r : Run) (frames frames' : List Frame) :
    (r.sentAlso frames).sentAlso frames' = r.sentAlso (frames ++ frames') := by
  simp [sentAlso, Nat.add_assoc]

variable [LawfulMonad m] {send : Frame → m Bool} {r : Run}

/-- Offering frames in turn is what the sink takes of them. -/
theorem foldlM_offered (frames : List Frame) :
    (frames.map Act.offered).foldlM (perform send) r = do return r.sentAlso (← frames.filterM send) := by
  have haux (accepted : List Frame) : (frames.map Act.offered).foldlM (perform send) (r.sentAlso accepted.reverse) = do
      return r.sentAlso (← frames.filterAuxM send accepted).reverse := by
    induction frames generalizing accepted with
    | nil => rw [List.filterAuxM, pure_bind]; rfl
    | cons f frames ih =>
      rw [List.map_cons, List.foldlM_cons, List.filterAuxM, perform, bind_assoc, bind_assoc]
      congr 1
      funext taken
      rw [pure_bind]
      cases taken with
      | true =>
        rw [if_pos rfl, sentAlso_sentAlso, ← List.reverse_cons]
        exact ih (f :: accepted)
      | false => exact ih accepted
  have hstart := haux []
  rw [List.reverse_nil, sentAlso_nil] at hstart
  rw [hstart, List.filterM, bind_assoc]
  simp only [pure_bind]

/-- To take a delivery is to begin it and to offer its frames. -/
theorem takeInto_eq {d : Delivery} {rest : List Delivery} (hcoming : r.untaken = d :: rest) :
    r.takeInto send d rest = do return (r.begun d).sentAlso (← (r.provider.taking d).2.filterM send) := by
  have hrest : r.untaken.tail = rest := by rw [hcoming, List.tail_cons]
  cases d with
  | error e =>
    rw [takeInto, ← hrest]
    simp only [taking, List.filterM, List.filterAuxM, pure_bind, List.reverse_nil, sentAlso_nil]
    rfl
  | ok b =>
    rw [takeInto, ← hrest]
    rfl

/-- Acts that neither take nor offer leave a run as it is. -/
theorem foldlM_event (events : List Event) : (events.map Act.event).foldlM (perform send) r = pure r := by
  induction events with
  | nil => rfl
  | cons e events ih =>
    rw [List.map_cons, List.foldlM_cons, perform, pure_bind]
    exact ih

end Run

/-! ### The acts of a run -/

/-- The events before a look, and the look, which finds whether there was a request. -/
def actsToLook (schedule : Schedule) (n : Nat) (looked : Channel) : List Act :=
  (schedule.beforeLook n).map .event ++ [.looked looked.requested]

/-- The acts up to the waiting of a step. -/
def actsToWait (schedule : Schedule) (n : Nat) (looked : Channel) : List Act :=
  actsToLook schedule n looked ++ (schedule.beforeWait n).map .event

/-- The acts of the steps from step `n` on. -/
def actsFrom (schedule : Schedule) (n : Nat) (channel : Channel) (lossSeen : Bool) (deliveries : List Delivery)
    (p : Provider) : List Act :=
  let looked := channel.afterAll (schedule.beforeLook n)
  if looked.requested then actsToLook schedule n looked
  else
    let waiting := looked.afterAll (schedule.beforeWait n)
    if waiting.requested then actsToWait schedule n looked ++ [.woken, .looked true]
    else if waiting.senderGone ∧ lossSeen = false then
      actsToWait schedule n looked ++ .woken :: actsFrom schedule (n + 1) waiting true deliveries p
    else match deliveries with
      | [] => actsToWait schedule n looked ++ [.ended]
      | d :: rest =>
        actsToWait schedule n looked ++
          .took d :: ((p.taking d).2.map .offered ++ actsFrom schedule (n + 1) waiting lossSeen rest (p.taking d).1)
termination_by (deliveries.length, if lossSeen then 0 else 1)
decreasing_by
  · simp_all
    exact .right _ (by decide)
  · exact .left _ _ (by simp)

/-- The acts of a run under a schedule. -/
def acts (p : Provider) (schedule : Schedule) (deliveries : List Delivery) : List Act :=
  actsFrom schedule 0 .fresh false deliveries p

section
variable {m : Type → Type} [Monad m] [LawfulMonad m] {send : Frame → m Bool} {schedule : Schedule} {n : Nat}
  {channel looked waiting : Channel} {lossSeen : Bool} {deliveries : List Delivery} {r : Run} {p : Provider}

theorem foldlM_actsToLook {looked : Channel} :
    (actsToLook schedule n looked).foldlM (Run.perform send) r = pure r := by
  simp [actsToLook, Run.foldlM_event, Run.perform]

theorem foldlM_actsToWait {looked : Channel} :
    (actsToWait schedule n looked).foldlM (Run.perform send) r = pure r := by
  simp [actsToWait, foldlM_actsToLook, Run.foldlM_event]

/-- The steps of a run perform its acts. -/
theorem steps_eq_foldlM (hcoming : r.untaken = deliveries) :
    steps send schedule n channel lossSeen deliveries r =
      (actsFrom schedule n channel lossSeen deliveries r.provider).foldlM (Run.perform send) r := by
  fun_induction steps send schedule n channel lossSeen deliveries r with
  | case1 n channel lossSeen deliveries r looked hlooked =>
    rw [actsFrom.eq_def]
    simp [looked, hlooked, foldlM_actsToLook]
  | case2 n channel lossSeen deliveries r looked hlooked waiting hwaiting =>
    rw [actsFrom.eq_def]
    simp [looked, hlooked, waiting, hwaiting, foldlM_actsToWait, Run.perform]
  | case3 n channel lossSeen deliveries r looked hlooked waiting hwaiting hloss ih =>
    rw [actsFrom.eq_def]
    simp [looked, hlooked, waiting, hwaiting, hloss, foldlM_actsToWait, Run.perform, ih hcoming]
  | case4 n channel lossSeen r looked hlooked waiting hwaiting hloss =>
    rw [actsFrom.eq_def]
    simp [looked, hlooked, waiting, hwaiting, hloss, foldlM_actsToWait, Run.perform]
  | case5 n channel lossSeen r looked hlooked waiting hwaiting hloss d rest ih =>
    have hrest (taken : List Frame) : ((r.begun d).sentAlso taken).untaken = rest := by
      simp [Run.sentAlso, Run.begun, hcoming]
    have hprovider (taken : List Frame) : ((r.begun d).sentAlso taken).provider = (r.provider.taking d).1 := rfl
    rw [actsFrom.eq_def]
    simp [looked, hlooked, waiting, hwaiting, hloss, foldlM_actsToWait, Run.foldlM_offered, Run.perform,
      Run.takeInto_eq hcoming, ih _ (hrest _), hprovider]

/-! ### The loop allows the acts of a run -/

theorem execution_events (s : Loop) (events : List Event) :
    Execution s (events.map .event) { s with channel := s.channel.afterAll events } := by
  induction events generalizing s with
  | nil => exact .nil s
  | cons e events ih => exact .cons (.event s e) (ih _)

theorem execution_offered (p : Provider) (channel : Channel) (lossSeen : Bool) (coming : List Delivery)
    (frames : List Frame) : Execution ⟨p, .offering frames, channel, lossSeen, coming⟩ (frames.map .offered)
      ⟨p, .offering [], channel, lossSeen, coming⟩ := by
  induction frames with
  | nil => exact .nil _
  | cons f frames ih => exact .cons (.offer rfl) ih

/-- A channel whose sender is gone stays as it is. -/
theorem afterAll_of_senderGone (hgone : channel.senderGone = true) (events : List Event) :
    channel.afterAll events = channel := by
  induction events with
  | nil => rfl
  | cons e events ih =>
    have hafter : channel.after e = channel := by
      obtain ⟨requested, senderGone⟩ := channel
      obtain rfl : senderGone = true := hgone
      cases e <;> rfl
    rw [Channel.afterAll, List.foldl_cons, hafter]
    exact ih

/-- A look that finds a request is the last act. -/
theorem step_look_of_requested {s : Loop} (hphase : s.phase = .offering []) (hrequested : s.channel.requested = true) :
    Step s (.looked true) { s with phase := .stopped } := by
  have step := Step.look hphase
  rwa [hrequested, if_pos rfl] at step

theorem execution_actsToLook (p : Provider) (lossSeen : Bool) (coming : List Delivery)
    (hlooked : channel.afterAll (schedule.beforeLook n) = looked) :
    Execution ⟨p, .offering [], channel, lossSeen, coming⟩ (actsToLook schedule n looked)
      ⟨p, if looked.requested then .stopped else .waiting, looked, lossSeen, coming⟩ := by
  subst hlooked
  exact (execution_events _ _).append (.cons (.look rfl) (.nil _))

theorem execution_actsToWait (p : Provider) (lossSeen : Bool) (coming : List Delivery)
    (hlooked : channel.afterAll (schedule.beforeLook n) = looked) (hrequested : ¬looked.requested = true)
    (hwaiting : looked.afterAll (schedule.beforeWait n) = waiting) :
    Execution ⟨p, .offering [], channel, lossSeen, coming⟩ (actsToWait schedule n looked)
      ⟨p, .waiting, waiting, lossSeen, coming⟩ := by
  have hlook := execution_actsToLook p lossSeen coming hlooked
  rw [if_neg hrequested] at hlook
  subst hwaiting
  exact hlook.append (execution_events _ _)

/-- Steps are acts that the loop allows, and they end when it has stopped. A loss that was seen happened, and no
    request before it. -/
theorem execution_actsFrom (hloss : lossSeen = true → channel.senderGone = true ∧ channel.requested = false) :
    ∃ s : Loop, s.phase = .stopped ∧
      Execution ⟨p, .offering [], channel, lossSeen, deliveries⟩ (actsFrom schedule n channel lossSeen deliveries p) s := by
  fun_induction actsFrom schedule n channel lossSeen deliveries p with
  | case1 n channel lossSeen deliveries p looked hlooked =>
    exact ⟨_, if_pos hlooked, execution_actsToLook p lossSeen deliveries rfl⟩
  | case2 n channel lossSeen deliveries p looked hlooked waiting hwaiting =>
    have hopen : lossSeen = false := by
      by_contra hseen
      obtain ⟨hgone, hnone⟩ := hloss (by simpa using hseen)
      have hsame : waiting = channel := by simp only [waiting, looked, afterAll_of_senderGone hgone]
      cases hnone.symm.trans (hsame ▸ hwaiting)
    have hwait := execution_actsToWait p lossSeen deliveries rfl hlooked rfl
    exact ⟨_, rfl, hwait.append
      (.cons (.wake rfl ⟨hopen, .inl hwaiting⟩) (.cons (step_look_of_requested rfl hwaiting) (.nil _)))⟩
  | case3 n channel lossSeen deliveries p looked hlooked waiting hwaiting hnews ih =>
    have hwait := execution_actsToWait p lossSeen deliveries rfl hlooked rfl
    have hrequested : waiting.requested = false := by simpa using hwaiting
    have hwake : Step ⟨p, .waiting, waiting, lossSeen, deliveries⟩ .woken
        ⟨p, .offering [], waiting, true, deliveries⟩ := by
      have step : Step ⟨p, .waiting, waiting, lossSeen, deliveries⟩ .woken
          ⟨p, .offering [], waiting, !waiting.requested, deliveries⟩ := .wake rfl ⟨hnews.2, .inr hnews.1⟩
      rwa [hrequested] at step
    obtain ⟨s, hstopped, hrest⟩ := ih fun _ => ⟨hnews.1, hrequested⟩
    exact ⟨s, hstopped, hwait.append (.cons hwake hrest)⟩
  | case4 n channel lossSeen p looked hlooked waiting hwaiting hcalm =>
    have hwait := execution_actsToWait p lossSeen [] rfl hlooked rfl
    have hnone : ¬HasNews ⟨p, .waiting, waiting, lossSeen, []⟩ := fun h =>
      h.2.elim hwaiting fun hgone => hcalm ⟨hgone, h.1⟩
    exact ⟨_, rfl, hwait.append (.cons (.finish rfl hnone rfl) (.nil _))⟩
  | case5 n channel lossSeen p looked hlooked waiting hwaiting hcalm d rest ih =>
    have hwait := execution_actsToWait p lossSeen (d :: rest) rfl hlooked rfl
    have hnone : ¬HasNews ⟨p, .waiting, waiting, lossSeen, d :: rest⟩ := fun h =>
      h.2.elim hwaiting fun hgone => hcalm ⟨hgone, h.1⟩
    have hkept : lossSeen = true → waiting.senderGone = true ∧ waiting.requested = false := fun hseen => by
      obtain ⟨hgone, hnone⟩ := hloss hseen
      have hsame : waiting = channel := by simp only [waiting, looked, afterAll_of_senderGone hgone]
      exact hsame ▸ ⟨hgone, hnone⟩
    obtain ⟨s, hstopped, hrest⟩ := ih hkept
    exact ⟨s, hstopped, hwait.append (.cons (.take rfl hnone rfl) ((execution_offered _ _ _ _ _).append hrest))⟩

theorem execution_acts (p : Provider) (schedule : Schedule) (deliveries : List Delivery) :
    ∃ s : Loop, s.phase = .stopped ∧ Execution (.start p deliveries) (p.acts schedule deliveries) s := by
  refine execution_actsFrom fun hseen => ?_
  cases hseen

theorem events_append (acts acts' : List Act) : events (acts ++ acts') = events acts ++ events acts' :=
  List.filterMap_append

theorem events_map_event (l : List Event) : events (l.map .event) = l := by
  induction l with
  | nil => rfl
  | cons e l ih => exact congrArg (e :: ·) ih

theorem events_map_offered (frames : List Frame) : events (frames.map .offered) = [] := by
  induction frames with
  | nil => rfl
  | cons f frames ih => exact ih

theorem mem_events_actsToWait {e : Event} (he : e ∈ events (actsToWait schedule n looked)) :
    e ∈ schedule.beforeLook n ∨ e ∈ schedule.beforeWait n := by
  rw [actsToWait, actsToLook, events_append, events_append, events_map_event, events_map_event] at he
  rcases List.mem_append.mp he with he | he
  · rcases List.mem_append.mp he with he | he
    · exact .inl he
    · cases he
  · exact .inr he

/-- The events between the acts of steps are those of the schedule. -/
theorem mem_events_actsFrom {e : Event} (he : e ∈ events (actsFrom schedule n channel lossSeen deliveries p)) :
    ∃ n, e ∈ schedule.beforeLook n ∨ e ∈ schedule.beforeWait n := by
  fun_induction actsFrom schedule n channel lossSeen deliveries p with
  | case1 n channel lossSeen deliveries p looked hlooked =>
    have hwait : e ∈ events (actsToWait schedule n looked) := by
      rw [actsToWait, events_append]
      exact List.mem_append_left _ he
    exact ⟨n, mem_events_actsToWait hwait⟩
  | case2 n channel lossSeen deliveries p looked hlooked waiting hwaiting =>
    rw [events_append] at he
    rcases List.mem_append.mp he with he | he
    · exact ⟨n, mem_events_actsToWait he⟩
    · cases he
  | case3 n channel lossSeen deliveries p looked hlooked waiting hwaiting hnews ih =>
    rw [events_append] at he
    rcases List.mem_append.mp he with he | he
    · exact ⟨n, mem_events_actsToWait he⟩
    · exact ih he
  | case4 n channel lossSeen p looked hlooked waiting hwaiting hcalm =>
    rw [events_append] at he
    rcases List.mem_append.mp he with he | he
    · exact ⟨n, mem_events_actsToWait he⟩
    · cases he
  | case5 n channel lossSeen p looked hlooked waiting hwaiting hcalm d rest ih =>
    rw [events_append] at he
    rcases List.mem_append.mp he with he | he
    · exact ⟨n, mem_events_actsToWait he⟩
    · have hlater : e ∈ events ((p.taking d).2.map Act.offered ++
          actsFrom schedule (n + 1) waiting lossSeen rest (p.taking d).1) := he
      rw [events_append, events_map_offered] at hlater
      exact ih hlater

end

/-! ### Shutdown between batches -/

/-- In whatever order requests, the loss of the sender and the acts of the loop come, the deliveries that the loop
    takes are the first ones, in order and each once. Whenever it looks for a request, all frames of what it took
    were offered; if it finds one, it takes nothing more. It stops only after a request or with the last
    delivery; until then it has an act to do, and news of the channel ends its waiting once at most. A run under
    a schedule performs such acts, up to the end, between events of the schedule. So if shutdown is never requested,
    it takes every delivery. -/
theorem runInto_between_batches {m : Type → Type} [Monad m] [LawfulMonad m] (p : Provider) (send : Frame → m Bool)
    (deliveries : List Delivery) :
    (∀ acts s, Execution (.start p deliveries) acts s →
      taken acts ++ s.coming = deliveries ∧
        (∀ before seen after, acts = before ++ .looked seen :: after →
          offered before = p.offersFor (taken before) ∧ seen = (Channel.fresh.afterAll (events before)).requested ∧
            (seen = true → taken after = [])) ∧
        (s.phase = .stopped → offered acts = p.offersFor (taken acts) ∧
          (.requested ∉ events acts → taken acts = deliveries)) ∧
        (s.phase ≠ .stopped → ∃ a t, Step s a t ∧ a.event? = none) ∧ acts.countP Act.isWoken ≤ 1) ∧
      ∀ schedule : Schedule,
        (∃ s : Loop, s.phase = .stopped ∧ Execution (.start p deliveries) (p.acts schedule deliveries) s) ∧
          p.runInto send schedule deliveries =
            (p.acts schedule deliveries).foldlM (Run.perform send) (.start p deliveries) ∧
          (∀ e ∈ events (p.acts schedule deliveries), ∃ n, e ∈ schedule.beforeLook n ∨ e ∈ schedule.beforeWait n) ∧
          (schedule.NeverRequests → taken (p.acts schedule deliveries) = deliveries) := by
  refine ⟨fun acts s h => ⟨h.taken_coming, ?_, fun hstopped => ⟨?_, h.taken_of_start hstopped⟩, exists_step, h.countP_isWoken⟩,
    fun schedule => ?_⟩
  · rintro before seen after rfl
    exact h.at_look
  · exact h.offered_of_start (by rw [pending, hstopped])
  · obtain ⟨s, hstopped, h⟩ := execution_acts p schedule deliveries
    refine ⟨⟨s, hstopped, h⟩, steps_eq_foldlM rfl, fun e he => mem_events_actsFrom he, fun hquiet => ?_⟩
    refine h.taken_of_start hstopped fun he => ?_
    obtain ⟨n, hlook | hwait⟩ := mem_events_actsFrom he
    · exact (hquiet n).1 hlook
    · exact (hquiet n).2 hwait

/-- Shutdown is requested while the frame of the first batch is being offered. In a second run the sender is lost
    at the start, and the third delivery comes after a failed one. -/
theorem runInto_between_batches_doorLock :
    let lock (v : Bool) : Delivery :=
      .ok [⟨"Vehicle.Cabin.Door.Row1.DriverSide.IsLocked", .target, some (.boolean v)⟩]
    let rest := [.error .unreadable, lock false]
    let deliveries := lock true :: rest
    let before : List Act := [.looked false, .took (lock true), .event .requested, .offered ⟨258, false, [1]⟩]
    let s : Loop := ⟨(doorLock.taking (lock true)).1, .stopped, ⟨true, false⟩, false, rest⟩
    Execution (.start doorLock deliveries) (before ++ [.looked true]) s ∧
      offered before = doorLock.offersFor (taken before) ∧ taken (before ++ [.looked true]) ++ rest = deliveries ∧
      (Schedule.atStart [.senderGone]).NeverRequests ∧
      taken (doorLock.acts (.atStart [.senderGone]) deliveries) = deliveries := by
  intro lock rest deliveries before s
  have hframes : (doorLock.taking (lock true)).2 = [⟨258, false, [1]⟩] := by decide +kernel
  have htake : Step ⟨doorLock, .waiting, .fresh, false, deliveries⟩ (.took (lock true))
      ⟨(doorLock.taking (lock true)).1, .offering [⟨258, false, [1]⟩], .fresh, false, rest⟩ :=
    hframes ▸ .take rfl (by simp [HasNews, Channel.fresh]) rfl
  have h : Execution (.start doorLock deliveries) (before ++ [.looked true]) s :=
    .cons (.look rfl) (.cons htake (.cons (.event _ _) (.cons (.offer rfl) (.cons (.look rfl) (.nil s)))))
  have hquiet : (Schedule.atStart [.senderGone]).NeverRequests := fun n => by
    by_cases hn : n = 0 <;> simp [Schedule.atStart, hn]
  obtain ⟨hacts, hrun⟩ := runInto_between_batches (m := Id) doorLock (fun _ => true) deliveries
  obtain ⟨htaken, hlook, -⟩ := hacts _ s h
  exact ⟨h, (hlook before true [] rfl).1, htaken, hquiet, (hrun (.atStart [.senderGone])).2.2.2 hquiet⟩

end Provider
end SignalBridge
