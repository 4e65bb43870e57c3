import Std.Data.TreeMap
import SignalBridge.Transform

/-!
The mapping table: which bus signals the leaves of the signal tree drive. Entries are numbered in the
order in which they are added, and two indices hold their numbers, by path and by frame.
-/

namespace SignalBridge

/-- The signal that a leaf drives, the frame that carries it, and the value it was last given. The value
is absent until the first update and after an update that gave none. -/
structure Entry where
  signal : String
  frame : Nat
  transform : Option Transform
  last : Option Scalar

structure Table where
  entries : Array Entry
  byPath : Std.TreeMap String (List Nat)
  byFrame : Std.TreeMap Nat (List Nat)

namespace Table

def empty : Table :=
  { entries := #[], byPath := ∅, byFrame := ∅ }

/-- Adds an entry under a path. -/
def insert (t : Table) (path : String) (e : Entry) : Table :=
  let number := t.entries.size
  { entries := t.entries.push e
    byPath := t.byPath.insert path (t.byPath.getD path [] ++ [number])
    byFrame := t.byFrame.insert e.frame (t.byFrame.getD e.frame [] ++ [number]) }

def size (t : Table) : Nat :=
  t.entries.size

/-- The entries with the given numbers. -/
def select (t : Table) (numbers : List Nat) : List Entry :=
  numbers.filterMap (t.entries[·]?)

/-- The entries of a path, in the order in which they were added. -/
def entriesOfPath (t : Table) (path : String) : List Entry :=
  t.select (t.byPath.getD path [])

/-- The entries of a frame, in the order in which they were added. -/
def entriesOfFrame (t : Table) (frame : Nat) : List Entry :=
  t.select (t.byFrame.getD frame [])

def containsPath (t : Table) (path : String) : Bool :=
  t.byPath.contains path

/-- The paths that have an entry, ascending. -/
def paths (t : Table) : List String :=
  t.byPath.keys

/-- The frames that have an entry, ascending. -/
def frames (t : Table) : List Nat :=
  t.byFrame.keys

end Table
end SignalBridge
