import SignalBridge.Double.Parts

/-!
The shortest decimal that reads back as a given double. All reals in a certain interval round to the
double; for one digit, two digits and so on, the two decimals of that length around the double are
tried, and the first length at which one of them lies in the interval wins. Of two hits the nearer is
taken; which one an exact tie takes is left to the format that asks.
-/

namespace SignalBridge

/-- The number `coefficient · 10 ^ exponent`. -/
structure Decimal where
  coefficient : Nat
  exponent : Int
deriving DecidableEq, Repr

namespace Decimal

/-- The same number without zeros at the end of the coefficient. -/
def strip (d : Decimal) : Decimal :=
  if h : d.coefficient ≠ 0 ∧ d.coefficient % 10 = 0 then
    strip ⟨d.coefficient / 10, d.exponent + 1⟩
  else d
termination_by d.coefficient
decreasing_by omega

end Decimal

/-- Which of two equally near decimals is taken. -/
inductive Tie
  | up
  | even
deriving DecidableEq, Repr

namespace Double

/-- A double and the ends of the interval of reals that round to it, over one denominator. The ends
belong to the interval when the mantissa is even. -/
structure Neighbourhood where
  low : Nat
  value : Nat
  high : Nat
  denominator : Nat
  closed : Bool

/-- The interval of the positive double `mantissa · 2 ^ exponent`. Below a power of two the doubles
are twice as dense. -/
def neighbourhood (mantissa : Nat) (exponent : Int) : Neighbourhood :=
  let below := if mantissa = bit 52 ∧ -1074 < exponent then 1 else 2
  let scale := bit (exponent - 2).toNat
  { low := (4 * mantissa - below) * scale
    value := 4 * mantissa * scale
    high := (4 * mantissa + 2) * scale
    denominator := bit (2 - exponent).toNat
    closed := mantissa % 2 == 0 }

/-- The least `k` with value below `10 ^ k`, found by stepping up from an estimate that is not above
it. -/
def pointPosition (n : Neighbourhood) (estimate : Int) : Nat → Int
  | 0 => estimate
  | steps + 1 =>
    if n.value * Nat.pow 10 (-estimate).toNat < n.denominator * Nat.pow 10 estimate.toNat then estimate
    else pointPosition n (estimate + 1) steps

/-- The decimal with last place `10 ^ place` inside the interval, the nearer of two. -/
def onGrid? (tie : Tie) (n : Neighbourhood) (place : Int) : Option Decimal :=
  let up := Nat.pow 10 (-place).toNat
  let unit := n.denominator * Nat.pow 10 place.toNat
  let value := n.value * up
  let floor := value / unit
  let rest := value % unit
  let reaches (bound candidate : Nat) : Bool := if n.closed then bound ≤ candidate else bound < candidate
  let lower := reaches (n.low * up) (floor * unit)
  let upper := reaches ((floor + 1) * unit) (n.high * up)
  let upperNearer := unit < 2 * rest ||
    (2 * rest == unit && (match tie with | .up => true | .even => floor % 2 == 1))
  if lower && upper then some ⟨if upperNearer then floor + 1 else floor, place⟩
  else if lower then some ⟨floor, place⟩
  else if upper then some ⟨floor + 1, place⟩
  else none

/-- The shortest decimal for the positive double `mantissa · 2 ^ exponent`; 17 digits always do. -/
def shortest (tie : Tie) (mantissa : Nat) (exponent : Int) : Decimal :=
  let n := neighbourhood mantissa exponent
  let point := pointPosition n ((mantissa.log2 + exponent) * 30103 / 100000 - 1) 4
  match (List.range 17).findSome? fun (i : Nat) => onGrid? tie n (point - 1 - i) with
  | some d => d.strip
  | none => ⟨0, 0⟩

end Double
end SignalBridge
