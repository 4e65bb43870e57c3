import SignalBridge.Double.Parts

/-!
Whole numbers near a double, remainders, and correctly rounded roots.
-/

namespace SignalBridge

/-- The nearest whole number, halves away from zero. -/
def Dyadic.round (d : Dyadic) : Int :=
  let magnitude :=
    if 0 ≤ d.exponent then d.mantissa * bit d.exponent.toNat
    else
      let scale := bit (-d.exponent).toNat
      (2 * d.mantissa + scale) / (2 * scale)
  if d.negative then -(magnitude : Int) else magnitude

namespace Double

/-- The nearest whole number to a finite double, halves away from zero. -/
def round? (x : Float) : Option Int :=
  (parts? x).map Dyadic.round

/-- The remainder of dividing `x` by `y` toward zero; it is exact and has the sign of `x`. -/
def remainder (x y : Float) : Float :=
  match parts? x, parts? y with
  | some a, some b =>
    if b.mantissa = 0 then nan
    else
      let unit := min a.exponent b.exponent
      let dividend := a.mantissa * bit (a.exponent - unit).toNat
      let divisor := b.mantissa * bit (b.exponent - unit).toNat
      nearest ⟨a.negative, dividend % divisor, unit⟩
  | some _, none => if y.isInf then x else nan
  | none, _ => nan

/-- The greatest whole number whose power `k` is at most `n`, found bit by bit from the highest. -/
def wholeRoot (k n : Nat) : Nat :=
  (List.range (n.log2 / k + 1)).foldr
    (fun i root => if Nat.pow (root + bit i) k ≤ n then root + bit i else root) 0

/-- The double nearest to `±` the root of power `k` of `n · 2 ^ (k · exponent)`. The root is computed to
more than 64 bits and a last bit records whether anything was left over. -/
def nearestRoot (negative : Bool) (k n : Nat) (exponent : Int) : Float :=
  let scaled := n * bit (66 * k)
  let root := wholeRoot k scaled
  let sticky := if Nat.pow root k = scaled then 0 else 1
  nearest ⟨negative, 2 * root + sticky, exponent - 67⟩

/-- The double nearest to the square root of `x² + y²`. -/
def hypotenuse (x y : Float) : Float :=
  if x.isInf || y.isInf then infinity false
  else match parts? x, parts? y with
    | some a, some b =>
      let unit := min a.exponent b.exponent
      let p := a.mantissa * bit (a.exponent - unit).toNat
      let q := b.mantissa * bit (b.exponent - unit).toNat
      nearestRoot false 2 (p * p + q * q) unit
    | _, _ => nan

/-- The double nearest to the cube root of `x`. -/
def cubeRoot (x : Float) : Float :=
  match parts? x with
  | some d =>
    let extra := (d.exponent % 3).toNat
    nearestRoot d.negative 3 (d.mantissa * bit extra) ((d.exponent - extra) / 3)
  | none => x

/-- Neither zero, subnormal, infinite nor NaN. -/
def isNormal (x : Float) : Bool :=
  match parts? x with
  | some d => decide (bit 52 ≤ d.mantissa)
  | none => false

/-- The lesser of two doubles, the second one if they are equal; a NaN gives way to the other. -/
def lesser (x y : Float) : Float :=
  if y.isNaN || x < y then x else y

/-- The greater of two doubles, the second one if they are equal; a NaN gives way to the other. -/
def greater (x y : Float) : Float :=
  if y.isNaN || y < x then x else y

end Double
end SignalBridge
