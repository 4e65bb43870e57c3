import SignalBridge.Bits
import SignalBridge.Dbc.Grammar
import SignalBridge.Fault

/-!
Messages of the bus and the signals packed into them, as loaded from a database text. A loaded signal
has from 1 to 64 bits. Starts and lengths are kept in 16 bits, before the length is checked, and
identifiers lose the bit that marks the extended format.
-/

namespace SignalBridge

/-- A signal of a message. `selector` is the value of the multiplexer under which the signal is there;
without one it is always there. -/
structure Signal where
  name : String
  start : Nat
  length : Nat
  order : ByteOrder
  signed : Bool
  factor : Float
  offset : Float
  least : Float
  greatest : Float
  unit : Option String
  selector : Option Nat
deriving DecidableEq

/-- A message: `size` bytes that carry signals. -/
structure Message where
  frame : Nat
  extended : Bool
  name : String
  size : Nat
  sender : Option String
  signals : List Signal
  multiplexer : Option String
deriving DecidableEq

namespace Message

/-- The first signal of a name. -/
def signal? (m : Message) (name : String) : Option Signal :=
  m.signals.find? (·.name == name)

def signalNames (m : Message) : List String :=
  m.signals.map (·.name)

end Message

namespace Signal

/-- The selector of a signal. Only a signal that is selected and no multiplexer itself has one, and its
message must have a multiplexer. -/
def selectorOf (d : Dbc.SignalDeclaration) (multiplexed : Bool) : Except DatabaseFault (Option Nat) :=
  match d.multiplexing with
  | .selected k => if multiplexed then .ok (some k) else .error (.noMultiplexer d.name)
  | .none | .multiplexer | .selectedMultiplexer _ => .ok none

def ofDeclaration (d : Dbc.SignalDeclaration) (multiplexed : Bool) : Except DatabaseFault Signal := do
  let selector ← selectorOf d multiplexed
  let length := d.length % bit 16
  if length = 0 ∨ 64 < length then throw (.unsupportedLength d.name length)
  return {
    name := d.name, start := d.start % bit 16, length, order := d.order, signed := d.signed
    factor := d.factor, offset := d.offset, least := d.least, greatest := d.greatest
    unit := if d.unit.isEmpty then none else some d.unit, selector }

end Signal

namespace Message

/-- The first signal that is a multiplexer and nothing else. -/
def multiplexerOf (d : Dbc.MessageDeclaration) : Option String :=
  (d.signals.find? (·.multiplexing = .multiplexer)).map (·.name)

def ofDeclaration (d : Dbc.MessageDeclaration) : Except DatabaseFault Message := do
  let multiplexer := multiplexerOf d
  let signals ← d.signals.mapM (Signal.ofDeclaration · multiplexer.isSome)
  return {
    frame := d.identifier % bit 31, extended := bit 31 ≤ d.identifier, name := d.name, size := d.size
    sender := d.sender, signals, multiplexer }

/-- The messages that a database text declares. -/
def ofText (s : String) : Except DatabaseFault (List Message) :=
  match Dbc.document (.ofList s.toList) with
  | .found declarations rest =>
    if rest.size = 0 then declarations.mapM ofDeclaration else .error (.refused .leftOver)
  | .refused => .error (.refused .missingSection)
  | .broken => .error (.refused .brokenNumber)

end Message
end SignalBridge
