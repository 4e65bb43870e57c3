import SignalBridge.Mapping.Defaults
import SignalBridge.Mapping.Table

/-!
The values of a frame: its defaults, and over them the last values of its entries.
-/

namespace SignalBridge.Table

/-- The last values of some entries over other values; of entries for one signal the last one counts. -/
def overlay (values : SignalValues) (entries : List Entry) : SignalValues :=
  entries.foldl
    (fun values e =>
      match e.last with
      | some v => values.insert e.signal v
      | none => values)
    values

/-- The values of a frame. A frame without declared defaults has none. -/
def frameValues (t : Table) (defaults : Defaults) (frame : Nat) : Except Fault SignalValues :=
  match defaults.values? frame with
  | some values => .ok (overlay values (t.entriesOfFrame frame))
  | none => .error (.unsupportedFrame frame)

end SignalBridge.Table
