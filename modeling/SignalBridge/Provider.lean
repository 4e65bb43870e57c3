import SignalBridge.Bus.FrameLog
import SignalBridge.Mapping.Dispatch
import SignalBridge.Mapping.Document
import SignalBridge.Mapping.Overlay
import SignalBridge.Replay
import SignalBridge.Shutdown

/-!
The provider keeps the bus up to date with the signal tree. For each batch it gives the mapped signals
their new values and offers every frame that was touched and has defaults. A frame that cannot be built
is left out, and a frame that is refused does not stop the others.
-/

namespace SignalBridge

structure Provider where
  database : Database
  table : Table
  defaults : Defaults

namespace Provider

/-- The provider's subscription: the target values of all mapped paths, in ascending order. -/
def subscription (p : Provider) : List (String × List Field) :=
  p.table.paths.map fun path => (path, [.target])

/-- The target values in a batch; current values and cleared fields are passed over. -/
def targets (b : Batch) : List (String × Scalar) :=
  b.filterMap fun u =>
    match u.field, u.value with
    | .target, some v => some (u.path, v)
    | _, _ => none

/-- The frame with the current values of its signals. -/
def buildFrame (p : Provider) (id : Nat) : Except Fault Frame := do
  let values ← p.table.frameValues p.defaults id
  let data ← p.database.encode id values
  return { id, extended := p.database.isExtended id, data }

/-- The frame to offer for an identifier, if it has defaults and can be built. -/
def offer? (p : Provider) (id : Nat) : Option Frame :=
  if p.defaults.supports id then (p.buildFrame id).toOption else none

/-- The frames to offer among those touched. -/
def offers (p : Provider) (touched : List Nat) : List Frame :=
  touched.filterMap p.offer?

/-- Takes in a batch, and gives the frames to offer in ascending order of their identifiers. -/
def handle (p : Provider) (b : Batch) : Provider × List Frame :=
  let (table, touched) := p.table.applyUpdates (targets b)
  let p := { p with table }
  (p, p.offers touched.toList)

/-! ### Running -/

/-- What a run has done so far. -/
structure RunStats where
  batches : Nat
  failed : Nat
  sent : Nat
deriving DecidableEq, Repr

/-- The outcome of a run: the provider, what it did, the frames that were accepted, in order, and the
deliveries that were not taken. -/
structure Run where
  provider : Provider
  stats : RunStats
  frames : List Frame
  untaken : List Delivery

namespace Run

/-- A run that has not begun. -/
def start (p : Provider) (deliveries : List Delivery) : Run :=
  { provider := p, stats := ⟨0, 0, 0⟩, frames := [], untaken := deliveries }

/-- Takes one delivery, with a sink that takes the frames it accepts. A failed one is only counted. -/
def take (accepts : Frame → Bool) (r : Run) (d : Delivery) (rest : List Delivery) : Run :=
  match d with
  | .error _ => { r with stats := { r.stats with failed := r.stats.failed + 1 }, untaken := rest }
  | .ok batch =>
    let (provider, offered) := r.provider.handle batch
    let accepted := offered.filter accepts
    { provider
      stats := { r.stats with batches := r.stats.batches + 1, sent := r.stats.sent + accepted.length }
      frames := r.frames ++ accepted
      untaken := rest }

/-- Takes one delivery, with a sink that may act in any way on the frames it is offered in turn. It tells of
each whether it took it. -/
def takeInto {m : Type → Type} [Monad m] (send : Frame → m Bool) (r : Run) (d : Delivery) (rest : List Delivery) :
    m Run :=
  match d with
  | .error _ => return { r with stats := { r.stats with failed := r.stats.failed + 1 }, untaken := rest }
  | .ok batch => do
    let (provider, offered) := r.provider.handle batch
    let taken ← offered.filterM send
    return {
      provider
      stats := { r.stats with batches := r.stats.batches + 1, sent := r.stats.sent + taken.length }
      frames := r.frames ++ taken
      untaken := rest }

end Run

section
variable {m : Type → Type} [Monad m]

/-- Steps of a run from step `n` on. A step stops at a request for shutdown. Otherwise it waits: a request
made in the meantime wakes it and stops the run at its next look; the loss of the sender wakes it once;
else it takes the next delivery, and the run is over when there is none. -/
def steps (send : Frame → m Bool) (schedule : Shutdown.Schedule) (n : Nat) (channel : Shutdown.Channel)
    (lossSeen : Bool) (deliveries : List Delivery) (r : Run) : m Run :=
  let looked := channel.afterAll (schedule.beforeLook n)
  if looked.requested then return r
  else
    let waiting := looked.afterAll (schedule.beforeWait n)
    if waiting.requested then return r
    else if waiting.senderGone ∧ lossSeen = false then
      steps send schedule (n + 1) waiting true deliveries r
    else match deliveries with
      | [] => return r
      | d :: rest => do steps send schedule (n + 1) waiting lossSeen rest (← r.takeInto send d rest)
termination_by (deliveries.length, if lossSeen then 0 else 1)
decreasing_by
  · simp_all
    exact .right _ (by decide)
  · exact .left _ _ (by simp)

/-- Runs until the deliveries end or shutdown is requested. -/
def runInto (p : Provider) (send : Frame → m Bool) (schedule : Shutdown.Schedule)
    (deliveries : List Delivery) : m Run :=
  steps send schedule 0 .fresh false deliveries (.start p deliveries)

end

/-- Runs with a sink that takes the frames it accepts and does nothing else. -/
def run (p : Provider) (accepts : Frame → Bool) (schedule : Shutdown.Schedule)
    (deliveries : List Delivery) : Run :=
  Id.run (p.runInto (fun f => pure (accepts f)) schedule deliveries)

end Provider
end SignalBridge
