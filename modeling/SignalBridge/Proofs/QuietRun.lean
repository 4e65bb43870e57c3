import SignalBridge.Provider

/-! Runs without a request for shutdown. Such a run takes every delivery, in order, whether or not the sender is lost on
    the way. -/

namespace SignalBridge

namespace Shutdown

theorem Channel.requested_afterAll {c : Channel} {events : List Event} (h : .requested ∉ events) :
    (c.afterAll events).requested = c.requested := by
  unfold afterAll
  induction events generalizing c with
  | nil => rfl
  | cons event events ih =>
    rw [List.mem_cons, not_or] at h
    rw [List.foldl_cons, ih h.2]
    cases event with
    | requested => exact absurd rfl h.1
    | senderGone => rfl

/-- Shutdown is never requested. The sender may be lost at any time. -/
def Schedule.NeverRequests (schedule : Schedule) : Prop :=
  ∀ n, .requested ∉ schedule.beforeLook n ∧ .requested ∉ schedule.beforeWait n

theorem Schedule.neverRequests_atStart {events : List Event} (h : .requested ∉ events) :
    (Schedule.atStart events).NeverRequests := by
  intro n
  by_cases hn : n = 0 <;> simp [Schedule.atStart, hn, h]

end Shutdown

namespace Provider
variable {m : Type → Type} [Monad m] {send : Frame → m Bool} {r : Run}

namespace Run

/-- Takes deliveries one after the other. -/
def takeAll (accepts : Frame → Bool) (r : Run) : List Delivery → Run
  | [] => r
  | d :: rest => takeAll accepts (r.take accepts d rest) rest

/-- Takes deliveries one after the other, with a sink that may act in any way. -/
def takeAllInto (send : Frame → m Bool) (r : Run) : List Delivery → m Run
  | [] => return r
  | d :: rest => do takeAllInto send (← r.takeInto send d rest) rest

theorem filterM_pure [LawfulMonad m] (accepts : Frame → Bool) (frames : List Frame) :
    frames.filterM (fun f => (pure (accepts f) : m Bool)) = pure (frames.filter accepts) := by
  have haux (acc : List Frame) : frames.filterAuxM (fun f => (pure (accepts f) : m Bool)) acc =
      pure ((frames.filter accepts).reverse ++ acc) := by
    induction frames generalizing acc with
    | nil => rfl
    | cons f frames ih =>
      rw [List.filterAuxM, pure_bind, ih]
      cases hf : accepts f <;> simp [hf]
  rw [List.filterM, haux, pure_bind, List.append_nil, List.reverse_reverse]

/-- A sink that only accepts or refuses takes what it accepts. -/
theorem takeInto_pure [LawfulMonad m] (accepts : Frame → Bool) (d : Delivery) (rest : List Delivery) :
    r.takeInto (fun f => (pure (accepts f) : m Bool)) d rest = pure (r.take accepts d rest) := by
  cases d with
  | error _ => rfl
  | ok b => exact (congrArg (· >>= _) (filterM_pure accepts _)).trans (pure_bind _ _)

theorem takeAllInto_pure [LawfulMonad m] {accepts : Frame → Bool} {deliveries : List Delivery} :
    r.takeAllInto (fun f => (pure (accepts f) : m Bool)) deliveries = pure (r.takeAll accepts deliveries) := by
  induction deliveries generalizing r with
  | nil => rfl
  | cons d rest ih => rw [takeAllInto, takeInto_pure, pure_bind, ih, takeAll]

end Run

/-- Without a request every delivery is taken in turn, however often the loss of the sender wakes the loop. -/
theorem steps_of_neverRequests {schedule : Shutdown.Schedule} (hquiet : schedule.NeverRequests) {n : Nat}
    {channel : Shutdown.Channel} (hchannel : channel.requested = false) {lossSeen : Bool} {deliveries : List Delivery} :
    steps send schedule n channel lossSeen deliveries r = r.takeAllInto send deliveries := by
  have hlooked (n : Nat) {c : Shutdown.Channel} (hc : c.requested = false) :
      (c.afterAll (schedule.beforeLook n)).requested = false :=
    (Shutdown.Channel.requested_afterAll (hquiet n).1).trans hc
  have hwaiting (n : Nat) {c : Shutdown.Channel} (hc : c.requested = false) :
      ((c.afterAll (schedule.beforeLook n)).afterAll (schedule.beforeWait n)).requested = false :=
    (Shutdown.Channel.requested_afterAll (hquiet n).2).trans (hlooked n hc)
  fun_induction steps send schedule n channel lossSeen deliveries r with
  | case1 n channel lossSeen deliveries r looked h => simp [looked, hlooked n hchannel] at h
  | case2 n channel lossSeen deliveries r looked _ waiting h => simp [waiting, looked, hwaiting n hchannel] at h
  | case3 n channel lossSeen deliveries r looked _ waiting _ _ ih => exact ih (hwaiting n hchannel)
  | case4 n channel lossSeen r looked _ waiting => rfl
  | case5 n channel lossSeen r looked _ waiting _ _ d rest ih =>
    rw [Run.takeAllInto]
    congr 1
    funext r'
    exact ih r' (hwaiting n hchannel)

/-- With a sink that only accepts or refuses, such a run is a plain sequence of deliveries. -/
theorem run_of_neverRequests {schedule : Shutdown.Schedule} (hquiet : schedule.NeverRequests) (p : Provider)
    (accepts : Frame → Bool) (deliveries : List Delivery) :
    p.run accepts schedule deliveries = (Run.start p deliveries).takeAll accepts deliveries := by
  have hrun : p.runInto (fun f => (pure (accepts f) : Id Bool)) schedule deliveries =
      pure ((Run.start p deliveries).takeAll accepts deliveries) :=
    (steps_of_neverRequests hquiet rfl).trans Run.takeAllInto_pure
  rw [run, hrun]
  rfl

end Provider
end SignalBridge
