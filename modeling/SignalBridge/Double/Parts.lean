import SignalBridge.Bits

/-!
Binary64 numbers taken apart. A finite double is a sign, a whole mantissa and a power of two, and every
exact computation of this library (rounding, remainders, digits) is done on these whole numbers. The
way back, `Double.nearest`, rounds once, to the nearest double with ties to the even mantissa.
-/

namespace SignalBridge

/-- The number `±mantissa · 2 ^ exponent`. -/
structure Dyadic where
  negative : Bool
  mantissa : Nat
  exponent : Int
deriving DecidableEq, Repr

namespace Double

/-- The parts of a finite double; infinities and NaN have none. -/
def parts? (x : Float) : Option Dyadic :=
  let bits := x.toBits.toNat
  let fraction := bits % bit 52
  let exponent : Nat := bits / bit 52 % bit 11
  let negative := decide (bits / bit 63 = 1)
  if exponent = 2047 then none
  else if exponent = 0 then some ⟨negative, fraction, -1074⟩
  else some ⟨negative, bit 52 + fraction, (exponent : Int) - 1075⟩

/-- The sign bit. -/
def isNegative (x : Float) : Bool :=
  decide (x.toBits.toNat / bit 63 = 1)

/-- The double with the given sign and the given bits below it. -/
def ofMagnitudeBits (negative : Bool) (bits : Nat) : Float :=
  Float.ofBits (UInt64.ofNat ((if negative then bit 63 else 0) + bits))

def infinity (negative : Bool) : Float :=
  ofMagnitudeBits negative (2047 * bit 52)

def nan : Float :=
  Float.ofBits 0x7ff8000000000000

/-! ### Rounding to the grid -/

/-- The whole number nearest to `n / 2 ^ k`, ties to even. -/
def shiftToNearest (n k : Nat) : Nat :=
  let quotient := n / bit k
  let twice := 2 * (n % bit k)
  if twice < bit k || (twice == bit k && quotient % 2 == 0) then quotient else quotient + 1

/-- The exponent of the unit in the last place of `mantissa · 2 ^ exponent`: 53 bits are kept, fewer
near zero. -/
def unitExponent (mantissa : Nat) (exponent : Int) : Int :=
  max (exponent + mantissa.log2 - 52) (-1074)

/-- The bits of the double nearest to `mantissa · 2 ^ exponent`. A mantissa that rounds up to 54 bits
carries into the exponent field, and past the largest double the result is infinity. -/
def magnitudeBits (mantissa : Nat) (exponent : Int) : Nat :=
  if mantissa = 0 then 0
  else
    let unit := unitExponent mantissa exponent
    let kept :=
      if unit ≤ exponent then mantissa * bit (exponent - unit).toNat
      else shiftToNearest mantissa (unit - exponent).toNat
    min (2047 * bit 52) ((unit + 1074).toNat * bit 52 + kept)

/-- The double nearest to a dyadic number. -/
def nearest (d : Dyadic) : Float :=
  ofMagnitudeBits d.negative (magnitudeBits d.mantissa d.exponent)

/-- The double nearest to a whole number. -/
def ofInt (i : Int) : Float :=
  nearest ⟨decide (i < 0), i.natAbs, 0⟩

/-- The double nearest to `±numerator / denominator`. The quotient is computed to more than 64 bits and
a last bit records whether anything was left over, so that rounding it again is exact. -/
def ofQuotient (negative : Bool) (numerator denominator : Nat) : Float :=
  let shift := denominator.log2 + 66 - numerator.log2
  let scaled := numerator * bit shift
  let sticky := if scaled % denominator = 0 then 0 else 1
  nearest ⟨negative, 2 * (scaled / denominator) + sticky, -(shift : Int) - 1⟩

/-- The double nearest to `±digits · 10 ^ exponent`. Numbers beyond either end of the double range are
settled by their size alone. -/
def ofDecimal (negative : Bool) (digits : Nat) (exponent : Int) : Float :=
  let size : Int := (digits.log2 * 30103 / 100000 : Nat)
  if digits = 0 then ofMagnitudeBits negative 0
  else if 310 < size + exponent then infinity negative
  else if size + exponent < -330 then ofMagnitudeBits negative 0
  else if 0 ≤ exponent then nearest ⟨negative, digits * Nat.pow 10 exponent.toNat, 0⟩
  else ofQuotient negative digits (Nat.pow 10 (-exponent).toNat)

end Double
end SignalBridge
