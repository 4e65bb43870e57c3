import SignalBridge.Json.Raw

/-!
What a number denotes. A whole number is exact. Any other number is read by steps that each round: its
leading digits, as many as fit 64 bits, become a double, and that is multiplied or divided by a power of
ten. So one number that is written in two ways may be read as two neighbouring doubles, and a number that
is beyond the largest double after the last step is refused, even if its exact value is not.
-/

namespace SignalBridge.Json

/-- Appends digits to a whole number as long as it fits 64 bits, and gives those that are left. -/
def takeDigits : Nat → List Char → Nat × List Char
  | n, [] => (n, [])
  | n, c :: cs =>
    let longer := 10 * n + Text.digitValue c
    if longer < bit 64 then takeDigits longer cs else (n, c :: cs)

/-! ### Scaling -/

/-- The exponent of the largest power of ten that is a double. -/
def maxPower : Nat := 308

def powerOfTen (n : Nat) : Float :=
  Double.ofDecimal false 1 n

/-- Divides by the largest power of ten a number of times, or until nothing is left. -/
def divideSteps : Nat → Float → Float
  | 0, x => x
  | n + 1, x => if x == 0 then x else divideSteps n (x / powerOfTen maxPower)

/-- The double `x ≥ 0` times `10 ^ power`, if that is finite. Beyond the largest power of ten only zero
is multiplied, and a division takes several steps. -/
def scale? (x : Float) (power : Int) : Option Float :=
  if power < 0 then
    let places := power.natAbs
    let steps := (places - 1) / maxPower
    some (divideSteps steps x / powerOfTen (places - steps * maxPower))
  else if power ≤ maxPower then
    let y := x * powerOfTen power.toNat
    if y.isFinite then some y else none
  else if x == 0 then some x
  else none

namespace Literal

/-- A number without fraction and exponent, and other than `-0`. -/
def isInteger (l : Literal) : Bool :=
  l.fraction.isNone && l.exponent.isNone && !(l.negative && Text.wholeOf l.whole == 0)

/-- The whole number of an integer literal. -/
def integer (l : Literal) : Int :=
  if l.negative then -(Text.wholeOf l.whole : Int) else Text.wholeOf l.whole

/-- The leading digits of a number and the power of ten that they are scaled by. -/
def leading (l : Literal) : Nat × Int :=
  let fraction := l.fraction.getD []
  let (n, skipped) := takeDigits 0 l.whole
  let (n, unread) := takeDigits n fraction
  (n, l.exponent.getD 0 + skipped.length - (fraction.length - unread.length : Nat))

/-- The double that a number is read as, if it is finite. -/
def double? (l : Literal) : Option Float :=
  let (n, power) := l.leading
  (scale? (Double.ofInt n) power).map fun x => if l.negative then -x else x

end Literal

end SignalBridge.Json
