import Std.Data.TreeMap
import SignalBridge.Bus.Message

/-!
The database of messages, found by frame and by the names of their signals.
-/

namespace SignalBridge

/-- Messages by frame, and for each signal name the frames that carry it, in the order in which they were
added. A message with several signals of one name is listed once for each. -/
structure Database where
  messages : Std.TreeMap Nat Message
  carriers : Std.TreeMap String (List Nat)

namespace Database

def empty : Database :=
  { messages := ∅, carriers := ∅ }

/-- Takes a frame off the lists of some signals. -/
def withdraw (frame : Nat) (carriers : Std.TreeMap String (List Nat)) (signals : List Signal) :
    Std.TreeMap String (List Nat) :=
  signals.foldl (fun carriers s => carriers.modify s.name (·.filter (· != frame))) carriers

/-- Puts a frame at the end of the lists of some signals. -/
def enlist (frame : Nat) (carriers : Std.TreeMap String (List Nat)) (signals : List Signal) :
    Std.TreeMap String (List Nat) :=
  signals.foldl (fun carriers s => carriers.insert s.name ((carriers.getD s.name []) ++ [frame])) carriers

/-- Adds a message, which replaces the one that has its frame. -/
def add (d : Database) (m : Message) : Database :=
  let carriers :=
    match d.messages[m.frame]? with
    | some previous => withdraw m.frame d.carriers previous.signals
    | none => d.carriers
  { messages := d.messages.insert m.frame m, carriers := enlist m.frame carriers m.signals }

def message? (d : Database) (frame : Nat) : Option Message :=
  d.messages[frame]?

/-- The message of a frame. -/
def message (d : Database) (frame : Nat) : Except Fault Message :=
  match d.message? frame with
  | some m => .ok m
  | none => .error (.messageNotFound frame)

/-- The frame that carries a signal: of several the one added first. -/
def frameOf? (d : Database) (signal : String) : Option Nat :=
  (d.carriers.getD signal []).head?

/-- The frame has the extended format. Unknown frames have the standard format. -/
def isExtended (d : Database) (frame : Nat) : Bool :=
  (d.message? frame).any (·.extended)

def messageCount (d : Database) : Nat :=
  d.messages.size

def signalCount (d : Database) : Nat :=
  d.messages.values.foldl (fun n m => n + m.signals.length) 0

/-! ### Loading -/

/-- Adds the messages of a database text; a text that is refused adds nothing. -/
def load (d : Database) (text : String) : Except Fault Database :=
  match Message.ofText text with
  | .ok messages => .ok (messages.foldl add d)
  | .error f => .error (.database f)

/-- The text of a database file. Bytes that are not UTF-8 are taken as Latin-1. -/
def textOfBytes (bytes : ByteArray) : String :=
  match String.fromUTF8? bytes with
  | some s => s
  | none => String.ofList (bytes.toList.map fun b => Char.ofNat b.toNat)

/-- As `load`, from a file that has the given bytes if it is there. -/
def loadFile (d : Database) (path : String) (content : Option ByteArray) : Except Fault Database :=
  match content with
  | none => .error (.database (.unreadable path .missing))
  | some bytes =>
    match Message.ofText (textOfBytes bytes) with
    | .ok messages => .ok (messages.foldl add d)
    | .error f => .error (.database (.inFile path f))

end Database
end SignalBridge
