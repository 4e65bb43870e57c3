import SignalBridge.Bus.BitRun
import SignalBridge.Bus.Database
import SignalBridge.Bus.Payload
import SignalBridge.Double.Rounding

/-!
Packing values into payloads and back. A value is scaled to the whole number nearest to
`(value - offset) / factor`, which must fit the signal's width. A signal with a selector takes part only
while the multiplexer has that value.
-/

namespace SignalBridge

/-- Values by signal name. -/
abbrev SignalValues := Std.TreeMap String Scalar

namespace Signal

/-- The signal takes part when the multiplexer has the given value. -/
def isActive (s : Signal) (multiplexer : Option Nat) : Bool :=
  match s.selector with
  | some k => multiplexer == some k
  | none => true

/-! ### From values to bits -/

/-- The double nearest to `2 ^ n - 1`, as a whole number: beyond the 53 bits of a double it is the power itself. -/
def greatestBelow (n : Nat) : Int :=
  if n ≤ 53 then (bit n : Int) - 1 else bit n

/-- The least and greatest whole number that a signal is offered. -/
def range (s : Signal) : Int × Int :=
  if s.signed then (-(bit (s.length - 1) : Int), greatestBelow (s.length - 1)) else (0, greatestBelow s.length)

/-- The nearest number of 64 bits, signed or not. -/
def clamp (signed : Bool) (i : Int) : Int :=
  if signed then max (-(bit 63 : Int)) (min i ((bit 63 : Int) - 1)) else max 0 (min i ((bit 64 : Int) - 1))

/-- The bits of a signal for a value. -/
def toRaw (s : Signal) (v : Scalar) : Except Fault Nat :=
  match v.toDouble? with
  | none => .error (.notNumeric s.name v)
  | some x =>
    let (least, greatest) := s.range
    match Double.round? ((x - s.offset) / s.factor) with
    | some i =>
      if least ≤ i ∧ i ≤ greatest then .ok ((clamp s.signed i) % bit s.length).toNat
      else .error (.outOfRange s.name v s.length)
    | none => .error (.outOfRange s.name v s.length)

/-! ### From bits to values -/

/-- The number that the bits of a signal denote: in two's complement if it is signed. -/
def numberOf (s : Signal) (raw : Nat) : Int :=
  if s.signed && bit (s.length - 1) ≤ raw then (raw : Int) - bit s.length else raw

/-- The value of a signal for its bits. Without scaling it is an integer, which has 64 signed bits. -/
def valueOf (s : Signal) (raw : Nat) : Scalar :=
  let i := Int64.ofInt (s.numberOf raw)
  if s.factor == 1.0 && s.offset == 0.0 then .integer i
  else .double (s.offset + s.factor * Double.ofInt i.toInt)

end Signal

namespace Message

/-- The signals that take part when the multiplexer has the given value. -/
def active (m : Message) (multiplexer : Option Nat) : List Signal :=
  m.signals.filter (·.isActive multiplexer)

/-- The value of the multiplexer among some values; `none` if the message has no multiplexer. -/
def multiplexerRaw (m : Message) (values : SignalValues) : Except Fault (Option Nat) :=
  match m.multiplexer with
  | none => .ok none
  | some name =>
    match m.signal? name, values[name]? with
    | some s, some v => (s.toRaw v).map some
    | _, _ => .error (.missingValue m.frame name)

/-- The payload with one signal set from the values. -/
def packSignal (m : Message) (values : SignalValues) (s : Signal) : Except Fault Nat := do
  match values[s.name]? with
  | none => throw (.missingValue m.frame s.name)
  | some v =>
    let raw ← s.toRaw v
    return Payload.scatter raw (← s.positions m.size)

/-- The payload of the given signals, one over the other. -/
def packSignals (m : Message) (values : SignalValues) : List Signal → Except Fault Nat
  | [] => .ok 0
  | s :: signals => do
    let payload ← m.packSignal values s
    return payload ||| (← m.packSignals values signals)

/-- The payload of a message for some values. Every signal that takes part needs one. Sizes have no bound here. Where
they are words of 64 bits, no payload longer than the greatest signed word can be allocated: encoding such a message is
abandoned instead. -/
def encode (m : Message) (values : SignalValues) : Except Fault (List UInt8) := do
  let multiplexer ← m.multiplexerRaw values
  let payload ← m.packSignals values (m.active multiplexer)
  return Payload.toBytes m.size payload

/-- The bits of a signal in a payload. -/
def rawOf (m : Message) (payload : Nat) (s : Signal) : Except Fault Nat :=
  (s.positions m.size).map (Payload.gather payload)

/-- The value of the multiplexer in a payload; `none` if the message has no multiplexer. -/
def multiplexerIn (m : Message) (payload : Nat) : Except Fault (Option Nat) :=
  match m.multiplexer.bind m.signal? with
  | some s => (m.rawOf payload s).map some
  | none => .ok none

/-- The values of some signals in a payload. Of signals with one name the last one counts. -/
def unpackSignals (m : Message) (payload : Nat) (signals : List Signal) : Except Fault SignalValues :=
  signals.foldlM (fun values s => do
    let raw ← m.rawOf payload s
    return values.insert s.name (s.valueOf raw)) ∅

/-- The values of the signals that take part in a payload, which may be longer than the message. -/
def decode (m : Message) (bytes : List UInt8) : Except Fault SignalValues := do
  if bytes.length < m.size then throw (.shortPayload m.frame m.size bytes.length)
  let payload := Payload.ofBytes bytes
  let multiplexer ← m.multiplexerIn payload
  m.unpackSignals payload (m.active multiplexer)

end Message

namespace Database

def encode (d : Database) (frame : Nat) (values : SignalValues) : Except Fault (List UInt8) := do
  (← d.message frame).encode values

def decode (d : Database) (frame : Nat) (bytes : List UInt8) : Except Fault SignalValues := do
  (← d.message frame).decode bytes

end Database
end SignalBridge
