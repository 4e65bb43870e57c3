import SignalBridge.Proofs.WholeReplay

/-! The loop of the provider act by act, with what happens at the sending end of the shutdown channel in between.
    Events may come between any two acts, also while the frames of a batch are offered and while the loop waits.
    In every order of acts and events the deliveries taken are the first ones, the loop looks for a request only
    when all frames of what it took are offered, takes nothing after a look that found one, and is woken without
    a delivery once at most. -/

namespace SignalBridge
namespace Provider

/-! ### Deliveries one after the other -/

/-- The provider after a delivery, and the frames to offer for it. A failed one has none. -/
def taking (p : Provider) : Delivery → Provider × List Frame
  | .ok b => p.handle b
  | .error _ => (p, [])

/-- All frames to offer for some deliveries. -/
def offersFor (p : Provider) : List Delivery → List Frame
  | [] => []
  | d :: deliveries => (p.taking d).2 ++ offersFor (p.taking d).1 deliveries

end Provider

namespace Loop
open Shutdown

/-! ### Acts and states -/

/-- An act of the loop, or an event at the sending end of its channel. -/
inductive Act
  | event (e : Event)
  /-- It looks for a request, and finds one or none. -/
  | looked (requested : Bool)
  /-- News of the channel ends its waiting. -/
  | woken
  | took (d : Delivery)
  | offered (f : Frame)
  /-- It finds that there are no more deliveries. -/
  | ended

namespace Act

def event? : Act → Option Event
  | .event e => some e
  | _ => none

def delivery? : Act → Option Delivery
  | .took d => some d
  | _ => none

def frame? : Act → Option Frame
  | .offered f => some f
  | _ => none

def isWoken : Act → Bool
  | .woken => true
  | _ => false

end Act

/-- The events among some acts. -/
def events (acts : List Act) : List Event :=
  acts.filterMap Act.event?

/-- The deliveries taken by some acts. -/
def taken (acts : List Act) : List Delivery :=
  acts.filterMap Act.delivery?

/-- The frames offered by some acts. -/
def offered (acts : List Act) : List Frame :=
  acts.filterMap Act.frame?

/-- What the loop is at. While it is offering it looks for a request as soon as no frame is left. -/
inductive Phase
  | offering (frames : List Frame)
  | waiting
  | stopped

end Loop

/-- The loop between two acts, with the deliveries that it has not taken. -/
structure Loop where
  provider : Provider
  phase : Loop.Phase
  channel : Shutdown.Channel
  lossSeen : Bool
  coming : List Delivery

namespace Loop
open Shutdown

def start (p : Provider) (deliveries : List Delivery) : Loop :=
  { provider := p, phase := .offering [], channel := .fresh, lossSeen := false, coming := deliveries }

/-- The frames that are still to be offered for what was taken. -/
def pending (s : Loop) : List Frame :=
  match s.phase with
  | .offering frames => frames
  | _ => []

/-- The channel has news for a waiting loop: a request, or the loss of the sender, which is news only once. -/
def HasNews (s : Loop) : Prop :=
  s.lossSeen = false ∧ (s.channel.requested = true ∨ s.channel.senderGone = true)

/-- One act. Events can happen at any time. A waiting loop attends to news of the channel before deliveries, and
    to a request before the loss of the sender. -/
inductive Step : Loop → Act → Loop → Prop
  | event (s : Loop) (e : Event) : Step s (.event e) { s with channel := s.channel.after e }
  | look {s : Loop} (hphase : s.phase = .offering []) :
    Step s (.looked s.channel.requested) { s with phase := if s.channel.requested then .stopped else .waiting }
  | wake {s : Loop} (hphase : s.phase = .waiting) (hnews : s.HasNews) :
    Step s .woken { s with phase := .offering [], lossSeen := !s.channel.requested }
  | take {s : Loop} {d : Delivery} {rest : List Delivery} (hphase : s.phase = .waiting) (hcalm : ¬s.HasNews)
    (hcoming : s.coming = d :: rest) :
    Step s (.took d)
      { s with provider := (s.provider.taking d).1, phase := .offering (s.provider.taking d).2, coming := rest }
  | offer {s : Loop} {f : Frame} {frames : List Frame} (hphase : s.phase = .offering (f :: frames)) :
    Step s (.offered f) { s with phase := .offering frames }
  | finish {s : Loop} (hphase : s.phase = .waiting) (hcalm : ¬s.HasNews) (hcoming : s.coming = []) :
    Step s .ended { s with phase := .stopped }

/-- Acts one after the other. -/
inductive Execution : Loop → List Act → Loop → Prop
  | nil (s : Loop) : Execution s [] s
  | cons {s t u : Loop} {a : Act} {acts : List Act} (step : Step s a t) (rest : Execution t acts u) :
    Execution s (a :: acts) u

variable {s t u : Loop} {a : Act} {acts before after : List Act} {p : Provider} {deliveries : List Delivery}

theorem Execution.append (h : Execution s before t) (h' : Execution t after u) : Execution s (before ++ after) u := by
  induction h with
  | nil => exact h'
  | cons step _ ih => exact .cons step (ih h')

theorem Execution.exists_of_append (h : Execution s (before ++ after) u) :
    ∃ t, Execution s before t ∧ Execution t after u := by
  induction before generalizing s with
  | nil => exact ⟨s, .nil s, h⟩
  | cons a before ih =>
    cases h with
    | cons step rest =>
      obtain ⟨t, hbefore, hafter⟩ := ih rest
      exact ⟨t, .cons step hbefore, hafter⟩

/-! ### What is taken and offered -/

theorem taken_cons (a : Act) (acts : List Act) : taken (a :: acts) = taken [a] ++ taken acts :=
  @List.filterMap_append _ _ [a] acts _

theorem offered_cons (a : Act) (acts : List Act) : offered (a :: acts) = offered [a] ++ offered acts :=
  @List.filterMap_append _ _ [a] acts _

theorem Step.taken_coming (step : Step s a t) : taken [a] ++ t.coming = s.coming := by
  cases step with
  | take _ _ hcoming => exact hcoming.symm
  | _ => rfl

/-- The deliveries are taken in order, each once. -/
theorem Execution.taken_coming (h : Execution s acts t) : taken acts ++ t.coming = s.coming := by
  induction h with
  | nil => rfl
  | @cons s t u a acts step _ ih =>
    rw [taken_cons, List.append_assoc, ih, step.taken_coming]

/-- What is pending is offered before anything else is taken. -/
theorem Step.offered_pending (step : Step s a t) (deliveries : List Delivery) :
    s.pending ++ s.provider.offersFor (taken [a] ++ deliveries) =
      offered [a] ++ (t.pending ++ t.provider.offersFor deliveries) := by
  unfold pending
  cases step with
  | event => rfl
  | look hphase =>
    rw [hphase]
    cases s.channel.requested <;> rfl
  | wake hphase | take hphase | offer hphase | finish hphase =>
    rw [hphase]
    rfl

theorem Execution.offered_pending (h : Execution s acts t) :
    s.pending ++ s.provider.offersFor (taken acts) = offered acts ++ t.pending := by
  induction h with
  | nil => exact List.append_nil _
  | @cons s t u a acts step _ ih =>
    rw [taken_cons, step.offered_pending, ih, offered_cons a acts, List.append_assoc]

theorem Execution.offered_of_start (h : Execution (.start p deliveries) acts t) (hpending : t.pending = []) :
    offered acts = p.offersFor (taken acts) := by
  have hoffered := h.offered_pending
  rw [hpending, List.append_nil] at hoffered
  exact hoffered.symm

/-! ### Where the loop stops -/

theorem Execution.channel_eq (h : Execution s acts t) : t.channel = s.channel.afterAll (events acts) := by
  induction h with
  | nil => rfl
  | cons step _ ih => cases step <;> exact ih

/-- A loop that has stopped does nothing more. -/
theorem Execution.taken_of_stopped (h : Execution s acts t) (hstopped : s.phase = .stopped) : taken acts = [] := by
  induction h with
  | nil => rfl
  | cons step _ ih =>
    cases step with
    | event e => exact ih hstopped
    | look hphase | wake hphase | take hphase | offer hphase | finish hphase => cases hphase.symm.trans hstopped

/-- The loop stops only because there was a request or because nothing more comes. -/
def Sound (s : Loop) : Prop :=
  s.phase = .stopped → s.channel.requested = true ∨ s.coming = []

theorem requested_after {c : Channel} {e : Event} (h : c.requested = true) : (c.after e).requested = true := by
  cases e with
  | requested => cases hgone : c.senderGone <;> simp [Channel.after, hgone, h]
  | senderGone => exact h

theorem Step.sound (step : Step s a t) (hs : s.Sound) : t.Sound := by
  intro hstopped
  cases step with
  | event e => exact (hs hstopped).imp_left requested_after
  | look =>
    cases hrequested : s.channel.requested with
    | true => exact .inl rfl
    | false => simp [hrequested] at hstopped
  | wake => cases hstopped
  | take => cases hstopped
  | offer => cases hstopped
  | finish _ _ hcoming => exact .inr hcoming

theorem Execution.sound (h : Execution s acts t) (hs : s.Sound) : t.Sound := by
  induction h with
  | nil => exact hs
  | cons step _ ih => exact ih (step.sound hs)

theorem sound_start : (start p deliveries).Sound := by
  intro hstopped
  cases hstopped

/-- If there was no request, a loop that has stopped took all deliveries. -/
theorem Execution.taken_of_start (h : Execution (.start p deliveries) acts t) (hstopped : t.phase = .stopped)
    (hnone : .requested ∉ events acts) : taken acts = deliveries := by
  have htaken : taken acts ++ t.coming = deliveries := h.taken_coming
  rcases h.sound sound_start hstopped with hrequested | hcoming
  · rw [h.channel_eq, Channel.requested_afterAll hnone] at hrequested
    cases hrequested
  · rwa [hcoming, List.append_nil] at htaken

/-- Unless it has stopped, the loop has an act to do, whatever happened before. -/
theorem exists_step (hphase : s.phase ≠ .stopped) : ∃ a t, Step s a t ∧ a.event? = none := by
  cases h : s.phase with
  | offering frames =>
    cases frames with
    | nil => exact ⟨_, _, .look h, rfl⟩
    | cons f frames => exact ⟨_, _, .offer h, rfl⟩
  | waiting =>
    by_cases hnews : s.HasNews
    · exact ⟨_, _, .wake h hnews, rfl⟩
    · cases hcoming : s.coming with
      | nil => exact ⟨_, _, .finish h hnews hcoming, rfl⟩
      | cons d rest => exact ⟨_, _, .take h hnews hcoming, rfl⟩
  | stopped => exact absurd h hphase

/-! ### Waking -/

/-- The loop cannot be woken again: it has seen the loss of the sender, or its next look finds a request. -/
def NoMoreNews (s : Loop) : Prop :=
  s.lossSeen = true ∨ s.phase = .stopped ∨ s.channel.requested = true ∧ s.phase ≠ .waiting

theorem Step.noMoreNews (step : Step s a t) (hs : s.NoMoreNews) : t.NoMoreNews ∧ a.isWoken = false := by
  cases step with
  | event e => exact ⟨hs.imp_right (.imp_right (.imp_left requested_after)), rfl⟩
  | look hphase =>
    refine ⟨hs.imp_right fun h => .inl ?_, rfl⟩
    rcases h with hstopped | ⟨hrequested, -⟩
    · cases hphase.symm.trans hstopped
    · exact if_pos hrequested
  | wake hphase hnews =>
    rcases hs with hloss | hstopped | ⟨-, hne⟩
    · cases hnews.1.symm.trans hloss
    · cases hphase.symm.trans hstopped
    · exact absurd hphase hne
  | take hphase =>
    refine ⟨.inl ?_, rfl⟩
    rcases hs with hloss | hstopped | ⟨-, hne⟩
    · exact hloss
    · cases hphase.symm.trans hstopped
    · exact absurd hphase hne
  | offer hphase =>
    refine ⟨hs.imp_right fun h => .inr ?_, rfl⟩
    rcases h with hstopped | ⟨hrequested, -⟩
    · cases hphase.symm.trans hstopped
    · exact ⟨hrequested, nofun⟩
  | finish => exact ⟨.inr (.inl rfl), rfl⟩

theorem Execution.countP_of_noMoreNews (h : Execution s acts t) (hs : s.NoMoreNews) : acts.countP Act.isWoken = 0 := by
  induction h with
  | nil => rfl
  | cons step _ ih =>
    obtain ⟨hnone, hact⟩ := step.noMoreNews hs
    rw [List.countP_cons_of_neg (by simp [hact])]
    exact ih hnone

/-- However the events come, the loop is woken without a delivery once at most. -/
theorem Execution.countP_isWoken (h : Execution s acts t) : acts.countP Act.isWoken ≤ 1 := by
  induction h with
  | nil => exact Nat.zero_le 1
  | @cons s _ _ _ acts step rest ih =>
    cases step with
    | wake =>
      have hnone : NoMoreNews { s with phase := .offering [], lossSeen := !s.channel.requested } := by
        cases hrequested : s.channel.requested with
        | true => exact .inr (.inr ⟨hrequested, nofun⟩)
        | false => exact .inl rfl
      have hcount : (Act.woken :: acts).countP Act.isWoken = 1 := by
        rw [List.countP_cons_of_pos rfl, rest.countP_of_noMoreNews hnone]
      exact Nat.le_of_eq hcount
    | _ => exact ih

/-! ### Looks -/

/-- When the loop looks, all frames of what it took are offered. It takes nothing after a look that finds a
    request. -/
theorem Execution.at_look {seen : Bool} (h : Execution (.start p deliveries) (before ++ .looked seen :: after) t) :
    offered before = p.offersFor (taken before) ∧ seen = (Channel.fresh.afterAll (events before)).requested ∧
      (seen = true → taken after = []) := by
  obtain ⟨s, hbefore, hlook⟩ := h.exists_of_append
  cases hlook with
  | cons step hafter =>
    cases step with
    | look hphase =>
      have hpending : s.pending = [] := by rw [pending, hphase]
      refine ⟨hbefore.offered_of_start hpending, ?_, fun hseen => hafter.taken_of_stopped (if_pos hseen)⟩
      rw [hbefore.channel_eq]
      rfl

end Loop
end SignalBridge
