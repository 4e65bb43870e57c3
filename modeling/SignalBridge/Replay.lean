import SignalBridge.Text.Blank
import SignalBridge.Text.Quoted
import SignalBridge.Update

/-!
Replaying recorded updates. A recording holds one batch a line; blank lines are passed over, and of each
batch only the subscribed paths are delivered. A line that is no batch is a failed delivery; a line that
is not UTF-8 ends the recording with one.
-/

namespace SignalBridge

/-- Why a delivery failed. -/
inductive ReplayFault
  | invalidBatch (line : String)
  | unreadable
deriving DecidableEq, Repr

namespace ReplayFault

def message : ReplayFault → String
  | invalidBatch line => "Invalid update batch: " ++ line
  | unreadable => "Failed to read updates"

end ReplayFault

/-- What a recording delivers: a batch, or a failure in its place. -/
abbrev Delivery := Except ReplayFault Batch

namespace Replay

/-- Why a recording of the given name cannot be opened. -/
def openFault (path : String) : String :=
  "Failed to open updates file: " ++ Text.quote path

/-- A line that has been read up to its end, without the carriage return before the line feed. The bytes
are given last first. -/
def endedLine : List UInt8 → List UInt8
  | 13 :: bytes => bytes.reverse
  | bytes => bytes.reverse

/-- The lines of a recording, after the bytes of the current line, which are given last first. A last
line without a line feed counts if it has bytes. -/
def linesAfter : List UInt8 → List UInt8 → List (List UInt8)
  | [], [] => []
  | current, [] => [current.reverse]
  | current, 10 :: bytes => endedLine current :: linesAfter [] bytes
  | current, b :: bytes => linesAfter (b :: current) bytes

/-- The lines of a recording. -/
def lines (bytes : List UInt8) : List (List UInt8) :=
  linesAfter [] bytes

/-- What a line holds. -/
inductive Line
  | blank
  | batch (b : Batch)
  | invalid (text : String)
  | unreadable

/-- Reads a line. -/
def readLine (bytes : List UInt8) : Line :=
  match String.fromUTF8? (ByteArray.mk bytes.toArray) with
  | none => .unreadable
  | some text =>
    if text.toList.all Text.isBlank then .blank
    else match Batch.parse? text with
      | some b => .batch b
      | none => .invalid text

/-- The part of a batch that concerns the subscribed paths. -/
def subscribed (paths : List String) (b : Batch) : Batch :=
  b.filter fun u => paths.contains u.path

/-- What lines deliver to a subscriber of some paths. -/
def deliveries (paths : List String) : List (List UInt8) → List Delivery
  | [] => []
  | line :: lines =>
    match readLine line with
    | .blank => deliveries paths lines
    | .batch b => .ok (subscribed paths b) :: deliveries paths lines
    | .invalid text => .error (.invalidBatch text) :: deliveries paths lines
    | .unreadable => [.error .unreadable]

end Replay
end SignalBridge
