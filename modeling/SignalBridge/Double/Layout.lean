import SignalBridge.Double.Shortest

/-!
How the shortest digits of a double are written. A `Layout` records the decisions of one format: where
positional notation ends, whether whole numbers carry `.0`, how an exponent is signed, and which of two
equally short and near decimals is taken.
-/

namespace SignalBridge

/-- The decisions of a number format. A number whose decimal point stands `p` places after the start of
its digits is written positionally when `leastPoint ≤ p ≤ greatestPoint`; `none` sets no bound. -/
structure Layout where
  leastPoint : Option Int
  greatestPoint : Option Int
  pointZero : Bool
  plusExponent : Bool
  tie : Tie

namespace Layout

/-- Plain text: always positional, whole numbers without a point. -/
def plain : Layout :=
  { leastPoint := none, greatestPoint := none, pointZero := false, plusExponent := false, tie := .up }

/-- Tagged values: positional from 1e-4 up to 1e16, and whole numbers keep their point. -/
def tagged : Layout :=
  { leastPoint := some (-3), greatestPoint := some 16, pointZero := true, plusExponent := false, tie := .up }

/-- JSON numbers: positional from 1e-5 up to 1e16, and exponents carry their sign. -/
def json : Layout :=
  { leastPoint := some (-4), greatestPoint := some 16, pointZero := true, plusExponent := true, tie := .even }

/-- Digits with the decimal point after the first `point` of them, padded with zeros. -/
def positional (l : Layout) (digits : List Char) (point : Int) : List Char :=
  if point ≤ 0 then '0' :: '.' :: List.replicate (-point).toNat '0' ++ digits
  else if digits.length ≤ point.toNat then
    digits ++ List.replicate (point.toNat - digits.length) '0' ++ (if l.pointZero then ['.', '0'] else [])
  else digits.take point.toNat ++ '.' :: digits.drop point.toNat

/-- One digit, a point before the others, and an exponent. -/
def scientific (l : Layout) (digits : List Char) (point : Int) : List Char :=
  let exponent := point - 1
  let sign := if exponent < 0 then ['-'] else if l.plusExponent then ['+'] else []
  let fraction := if digits.length ≤ 1 then [] else '.' :: digits.drop 1
  digits.take 1 ++ fraction ++ 'e' :: sign ++ Nat.toDigits 10 exponent.natAbs

/-- The text of a decimal above zero. -/
def decimal (l : Layout) (d : Decimal) : List Char :=
  let digits := Nat.toDigits 10 d.coefficient
  let point := digits.length + d.exponent
  if l.leastPoint.all (· ≤ point) && l.greatestPoint.all (point ≤ ·) then l.positional digits point
  else l.scientific digits point

/-- The text of a double. -/
def write (l : Layout) (x : Float) : String :=
  let sign := if Double.isNegative x then "-" else ""
  match Double.parts? x with
  | some d =>
    if d.mantissa = 0 then sign ++ if l.pointZero then "0.0" else "0"
    else sign ++ String.ofList (l.decimal (Double.shortest l.tie d.mantissa d.exponent))
  | none => if x.isNaN then "NaN" else sign ++ "inf"

end Layout
end SignalBridge
