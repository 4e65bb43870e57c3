import SignalBridge.Text.Number

/-!
Bytes and identifiers in hexadecimal.
-/

namespace SignalBridge.Text

/-- The upper-case hexadecimal digits of a number. -/
def upperHex (n : Nat) : List Char :=
  (Nat.toDigits 16 n).map Char.toUpper

/-- Text padded with zeros in front to a width. -/
def padZeros (width : Nat) (s : List Char) : List Char :=
  List.replicate (width - s.length) '0' ++ s

/-- The two upper-case hexadecimal digits of a byte. -/
def upperHexByte (b : UInt8) : List Char :=
  padZeros 2 (upperHex b.toNat)

/-- The bytes that pairs of hexadecimal digits denote. -/
def readHexBytes? : List Char → Option (List UInt8)
  | [] => some []
  | a :: b :: s =>
    if isHexDigit a && isHexDigit b then
      (readHexBytes? s).map (UInt8.ofNat (16 * hexValue a + hexValue b) :: ·)
    else none
  | [_] => none

end SignalBridge.Text
