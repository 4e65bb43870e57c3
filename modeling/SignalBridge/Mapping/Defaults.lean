import SignalBridge.Bus.Codec

/-!
Default values of frames. A frame is sent only if its defaults are declared.
-/

namespace SignalBridge

structure Defaults where
  frames : Std.TreeMap Nat SignalValues

namespace Defaults

def empty : Defaults :=
  { frames := ∅ }

/-- Declares the defaults of a frame, in place of earlier ones. -/
def insert (d : Defaults) (frame : Nat) (values : SignalValues) : Defaults :=
  { frames := d.frames.insert frame values }

def values? (d : Defaults) (frame : Nat) : Option SignalValues :=
  d.frames[frame]?

/-- The defaults of a frame are declared. -/
def supports (d : Defaults) (frame : Nat) : Bool :=
  d.frames.contains frame

/-- The frame with the status of the left doors. -/
def doorStatusFrame : Nat := 258

def doorStatusSignals : List String :=
  ["VCLEFT_frontHandlePWM", "VCLEFT_frontHandlePulled", "VCLEFT_frontHandlePulledPersist",
    "VCLEFT_frontIntSwitchPressed", "VCLEFT_frontLatchStatus", "VCLEFT_frontLatchSwitch",
    "VCLEFT_frontRelActuatorSwitch", "VCLEFT_mirrorDipped", "VCLEFT_mirrorFoldState",
    "VCLEFT_mirrorHeatState", "VCLEFT_mirrorRecallState", "VCLEFT_mirrorState",
    "VCLEFT_mirrorTiltXPosition", "VCLEFT_mirrorTiltYPosition", "VCLEFT_rearHandlePWM",
    "VCLEFT_rearHandlePulled", "VCLEFT_rearIntSwitchPressed", "VCLEFT_rearLatchStatus",
    "VCLEFT_rearLatchSwitch", "VCLEFT_rearRelActuatorSwitch"]

/-- The defaults that come with the program: zero for every signal of the door status. -/
def builtin : Defaults :=
  empty.insert doorStatusFrame (Std.TreeMap.ofList (doorStatusSignals.map fun name => (name, Scalar.integer 0)))

end Defaults
end SignalBridge
