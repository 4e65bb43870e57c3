import SignalBridge.Text.Hex

/-!
Frames and the log they are written to. A line holds the time, the interface, the identifier and the
payload in hexadecimal.
-/

namespace SignalBridge

/-- A frame that is ready to be sent. -/
structure Frame where
  id : Nat
  extended : Bool
  data : List UInt8
deriving DecidableEq, Repr

/-- A moment: whole seconds since the epoch, which may be negative, and nanoseconds after that. -/
structure Moment where
  seconds : Int
  nanoseconds : Nat
deriving DecidableEq, Repr

namespace Frame

/-- The number of payload bytes. -/
def dataLength (f : Frame) : Nat :=
  f.data.length

/-- The identifier: at least 8 digits in the extended format, at least 3 in the standard one. -/
def identifierDigits (f : Frame) : List Char :=
  Text.padZeros (if f.extended then 8 else 3) (Text.upperHex f.id)

/-- The line of a frame without its time: interface, identifier and payload. -/
def logEntry (f : Frame) (interface : List Char) : List Char :=
  interface ++ ' ' :: f.identifierDigits ++ '#' :: f.data.flatMap Text.upperHexByte

/-- The line of a frame, with its line end. -/
def logLine (f : Frame) (interface : String) (time : Moment) : String :=
  let stamp := Text.writeInt time.seconds ++ '.' :: Text.padZeros 6 (Nat.toDigits 10 (time.nanoseconds / 1000))
  String.ofList ('(' :: stamp ++ ')' :: ' ' :: f.logEntry interface.toList ++ ['\n'])

end Frame
end SignalBridge
