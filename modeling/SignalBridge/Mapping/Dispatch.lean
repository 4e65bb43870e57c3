import Std.Data.TreeSet
import SignalBridge.Mapping.Table

/-!
Dispatching updates: every entry of an updated path is given the transformed value, and the frames of
those entries have to be sent again.
-/

namespace SignalBridge

/-- The entry with a new value: the transformed one, or none if the transform gives none. -/
def Entry.refreshed (e : Entry) (v : Scalar) : Entry :=
  { e with last := transformed? e.transform v }

namespace Table

/-- Gives an entry the transformed value. -/
def refresh (t : Table) (v : Scalar) (number : Nat) : Table :=
  { t with entries := t.entries.modify number (·.refreshed v) }

/-- Gives the entries of a path a new value. -/
def update (t : Table) (path : String) (v : Scalar) : Table :=
  (t.byPath.getD path []).foldl (fun t number => t.refresh v number) t

/-- The frames of the entries of a path. -/
def framesOfPath (t : Table) (path : String) : List Nat :=
  (t.entriesOfPath path).map (·.frame)

/-- Gives new values to several paths in turn, and collects the frames that have to be sent again. -/
def applyUpdates (t : Table) (batch : List (String × Scalar)) : Table × Std.TreeSet Nat :=
  batch.foldl
    (fun (t, touched) (path, v) => (t.update path v, touched.insertMany (t.framesOfPath path)))
    (t, ∅)

end Table
end SignalBridge
