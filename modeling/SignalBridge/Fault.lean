import SignalBridge.Json.Printer
import SignalBridge.Text.Hex
import SignalBridge.Text.Quoted

/-!
What can go wrong between the signal tree and the bus, by cause. The wording is given once, by the
`message` of each cause.
-/

namespace SignalBridge

/-- How a database text is refused: text is left over, a required section is missing, or a number
breaks off after its exponent mark. -/
inductive Refusal
  | leftOver
  | missingSection
  | brokenNumber
deriving DecidableEq, Repr

/-- What keeps a file from being read as text. -/
inductive FileProblem
  | missing
  | notText
deriving DecidableEq, Repr

namespace FileProblem

def message : FileProblem → String
  | missing => "No such file or directory (os error 2)"
  | notText => "stream did not contain valid UTF-8"

end FileProblem

/-- Why a database cannot be loaded. -/
inductive DatabaseFault
  | refused (r : Refusal)
  | noMultiplexer (signal : String)
  | unsupportedLength (signal : String) (length : Nat)
  | unreadable (path : String) (p : FileProblem)
  | inFile (path : String) (f : DatabaseFault)
deriving DecidableEq, Repr

namespace DatabaseFault

def message : DatabaseFault → String
  | refused .leftOver => "Incomplete"
  | refused .missingSection => "Nom(Error)"
  | refused .brokenNumber => "Nom(Failure)"
  | noMultiplexer signal => "Multiplexed signal '" ++ signal ++ "' but no multiplexer found"
  | unsupportedLength signal length =>
    "Signal '" ++ signal ++ "' has unsupported length " ++ String.ofList (Nat.toDigits 10 length)
  | unreadable path p => "Failed to read file " ++ Text.quote path ++ ": " ++ p.message
  | inFile path f => Text.quote path ++ ": " ++ f.message

end DatabaseFault

/-- The key of the declaration that binds a leaf of the signal tree to a bus signal. -/
def declarationKey : String := "vss2dbc"

/-- Why a declaration is malformed. -/
inductive DeclarationFault
  | notObject
  | noSignal
  | transformNotObject
  | mappingAndMath
  | noMappingOrMath
  | mappingNotList
  | mathNotText
  | incompleteRow (row : Json)
  | notScalar (v : Json)

namespace DeclarationFault

def message : DeclarationFault → String
  | notObject => declarationKey ++ " is not an object"
  | noSignal => "no dbc signal found"
  | transformNotObject => "transform is not an object"
  | mappingAndMath => "transform can not have both mapping and math"
  | noMappingOrMath => "unsupported transform, expected mapping or math"
  | mappingNotList => "transform mapping is not a list"
  | mathNotText => "math must be a string"
  | incompleteRow row => "mapping entry " ++ row.print ++ " is missing from or to"
  | notScalar v => "mapping value " ++ v.print ++ " is not a scalar"

end DeclarationFault

/-- A fault of the bridge. -/
inductive Fault
  | database (f : DatabaseFault)
  | declaration (path : String) (f : DeclarationFault)
  | mappingUnreadable (path : String) (p : FileProblem)
  | mappingMalformed (path : String)
  | messageNotFound (frame : Nat)
  | unsupportedFrame (frame : Nat)
  | missingValue (frame : Nat) (signal : String)
  | notNumeric (signal : String) (v : Scalar)
  | outOfRange (signal : String) (v : Scalar) (length : Nat)
  | shortPayload (frame size actual : Nat)
  | outsideFrame (signal : String) (size : Nat)

namespace Fault

def message : Fault → String
  | database f => "Failed to parse DBC file: " ++ f.message
  | declaration path f => "Invalid mapping for " ++ path ++ ": " ++ f.message
  | mappingUnreadable path p =>
    "Failed to read mapping file: Failed to read " ++ Text.quote path ++ ": " ++ p.message
  | mappingMalformed path => "Failed to read mapping file: Failed to read json from " ++ Text.quote path
  | messageNotFound frame => "Message not found: CAN ID " ++ identifier frame
  | unsupportedFrame frame => "No default values declared for CAN ID " ++ identifier frame
  | missingValue frame signal => "No value for signal '" ++ signal ++ "' in CAN ID " ++ identifier frame
  | notNumeric signal v => "Value " ++ v.display ++ " for signal '" ++ signal ++ "' is not numeric"
  | outOfRange signal v length =>
    "Value " ++ v.display ++ " for signal '" ++ signal ++ "' does not fit in " ++ number length ++ " bits"
  | shortPayload frame size actual =>
    "Invalid data: CAN ID " ++ identifier frame ++ " needs " ++ number size ++ " bytes but frame has "
      ++ number actual
  | outsideFrame signal size =>
    "Invalid data: Signal '" ++ signal ++ "' does not fit in a " ++ number size ++ " byte frame"
where
  number (n : Nat) : String := String.ofList (Nat.toDigits 10 n)
  identifier (frame : Nat) : String := "0x" ++ String.ofList (Text.upperHex frame)

end Fault
end SignalBridge
