import SignalBridge.Bits
import SignalBridge.Text.Number
import SignalBridge.Text.Reader

/-!
Numbers. Single underscores may stand between digits, and a decimal number has no zeros in front.
-/

namespace SignalBridge.Toml.Number

open Text (Reader)
open Text.Reader

/-- Digits, perhaps with underscores between them. -/
def digits (isDigit : Char → Bool) : Reader (List Char) := do
  let first ← one isDigit
  let more ← many do
    discard (optional (char '_'))
    one isDigit
  return first :: more

/-- The digits of a decimal whole number. -/
def whole : Reader (List Char) :=
  (do char '0'; return ['0']) <|> digits Char.isDigit

/-- The number that digits of a base denote. -/
def inBase (base : Nat) (digits : List Char) : Nat :=
  digits.foldl (fun n c => base * n + Text.hexValue c) 0

/-- A number of 64 bits. -/
def narrow (i : Int) : Reader Int :=
  if (int64? i).isSome then return i else refuse

/-- A number without sign in a base, after a mark. -/
def based (mark : String) (base : Nat) (isDigit : Char → Bool) : Reader Int := do
  word mark
  narrow (inBase base (← digits isDigit))

/-- A whole number: in base 16, 8 or 2, or in decimal with an optional sign. -/
def integer : Reader Int :=
  based "0x" 16 Text.isHexDigit <|>
  based "0o" 8 (fun c => '0' ≤ c && c ≤ '7') <|>
  based "0b" 2 (fun c => c == '0' || c == '1') <|>
  (do
    let negative ← sign
    let n : Int := inBase 10 (← whole)
    narrow (if negative then -n else n))

def exponent : Reader Int := do
  oneOf [('e', ()), ('E', ())]
  let negative ← sign
  let n : Int := inBase 10 (← digits Char.isDigit)
  return if negative then -n else n

/-- The digits after the point and the exponent; at least one of the two is there. -/
def fractionAndExponent : Reader (List Char × Int) :=
  (do return ([], ← exponent)) <|>
  (do
    char '.'
    let fraction ← digits Char.isDigit
    return (fraction, (← optional exponent).getD 0))

/-- A number with a fraction, an exponent or both, or a word for infinity or NaN. A literal above all
doubles is refused. -/
def float : Reader Float :=
  (do
    let negative ← sign
    let whole ← whole
    let (fraction, exponent) ← fractionAndExponent
    let x := Text.doubleOf negative whole fraction exponent
    if x.isInf && !negative then refuse else return x) <|>
  (do let negative ← sign; word "inf"; return Double.infinity negative) <|>
  (do discard sign; word "nan"; return Double.nan)

end SignalBridge.Toml.Number
