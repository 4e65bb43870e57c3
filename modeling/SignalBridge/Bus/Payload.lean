import SignalBridge.Bits

/-!
Payloads as whole numbers. Bit `i` of the number is bit `i % 8` of byte `i / 8`, so a signal's positions
are bit positions of one number.
-/

namespace SignalBridge.Payload

/-- The number that bytes make, the first byte lowest. -/
def ofBytes : List UInt8 → Nat
  | [] => 0
  | b :: bytes => b.toNat + 256 * ofBytes bytes

/-- The first `size` bytes of a number. -/
def toBytes : Nat → Nat → List UInt8
  | 0, _ => []
  | size + 1, n => UInt8.ofNat (n % 256) :: toBytes size (n / 256)

/-- The number whose bits are those of `payload` at the given positions, the first one lowest. -/
def gather (payload : Nat) : List Nat → Nat
  | [] => 0
  | p :: positions => (payload.testBit p).toNat + 2 * gather payload positions

/-- The payload that holds the bits of `raw` at the given positions, the lowest at the first, and zeros
elsewhere. -/
def scatter (raw : Nat) : List Nat → Nat
  | [] => 0
  | p :: positions => (if raw.testBit 0 then bit p else 0) ||| scatter (raw / 2) positions

end SignalBridge.Payload
