/-!
The shutdown channel, as the loop that drives the bus sees it. A request stays visible once it has been
made; after the sender is gone none can be made.
-/

namespace SignalBridge.Shutdown

/-- What happens at the sending end. -/
inductive Event
  | requested
  | senderGone
deriving DecidableEq, Repr

structure Channel where
  requested : Bool
  senderGone : Bool
deriving DecidableEq, Repr

namespace Channel

def fresh : Channel :=
  { requested := false, senderGone := false }

def after (c : Channel) : Event → Channel
  | .requested => if c.senderGone then c else { c with requested := true }
  | .senderGone => { c with senderGone := true }

def afterAll (c : Channel) (events : List Event) : Channel :=
  events.foldl after c

end Channel

/-- When events happen, told by the steps of the loop: before step `n` looks for a request, and between
that look and its waiting for the next delivery. -/
structure Schedule where
  beforeLook : Nat → List Event
  beforeWait : Nat → List Event

namespace Schedule

/-- All events happen before the first step. -/
def atStart (events : List Event) : Schedule :=
  { beforeLook := fun n => if n = 0 then events else [], beforeWait := fun _ => [] }

/-- Nothing happens. -/
def quiet : Schedule :=
  atStart []

end Schedule
end SignalBridge.Shutdown
