import SignalBridge.Bits
import SignalBridge.Text.Alphabetic
import SignalBridge.Text.Number
import SignalBridge.Text.Reader

/-!
What database text is made of: spaces, names, quoted text and numbers. A number that breaks off after
its exponent mark breaks the text.
-/

namespace SignalBridge.Dbc.Atom

open Text (Reader)
open Text.Reader

/-- One space or more. -/
def spaces : Reader Unit :=
  discard (takeSome (· == ' '))

/-- Spaces, possibly none. -/
def anySpaces : Reader Unit :=
  discard (takeWhile (· == ' '))

/-- Spaces, tabs and line ends, possibly none. -/
def gap : Reader Unit :=
  discard (takeWhile fun c => isSpaceOrTab c || c == '\n' || c == '\r')

def isNameStart (c : Char) : Bool :=
  Text.isAlphabetic c || c == '_'

/-- A name: letters, digits and underscores, not starting with a digit. -/
def name : Reader String := do
  let first ← one isNameStart
  let more ← takeWhile fun c => isNameStart c || c.isDigit
  return String.ofList (first :: more)

/-- A text in double quotes, which may span lines. -/
def quoted : Reader String := do
  char '"'
  let cs ← takeWhile (· != '"')
  char '"'
  return String.ofList cs

/-! ### Numbers -/

/-- A whole number below a limit. -/
def natural (limit : Nat) : Reader Nat := do
  let n := Text.wholeOf (← takeSome Char.isDigit)
  if n < limit then return n else refuse

def natural32 : Reader Nat := natural (bit 32)

def natural64 : Reader Nat := natural (bit 64)

/-- A whole number of 64 bits with an optional sign. -/
def integer64 : Reader Int := do
  let negative ← sign
  let n := Text.wholeOf (← takeSome Char.isDigit)
  if negative then (if n ≤ bit 63 then return -(n : Int) else refuse)
  else if n < bit 63 then return n
  else refuse

/-- The digits before and after an optional point; there are digits before it or after it. -/
def digitsAroundPoint : Reader (List Char × List Char) :=
  (do
    let whole ← takeSome Char.isDigit
    let fraction ← optional (do char '.'; takeWhile Char.isDigit)
    return (whole, fraction.getD [])) <|>
  (do
    char '.'
    return ([], ← takeSome Char.isDigit))

/-- An optional exponent. Without digits after its mark the number is broken. -/
def exponent : Reader Int :=
  (do
    oneOf [('e', ()), ('E', ())]
    must do
      let negative ← sign
      let n : Int := Text.wholeOf (← takeSome Char.isDigit)
      return if negative then -n else n) <|>
  return 0

/-- A decimal number, or one of the words for NaN and infinity, which take no sign. -/
def decimal : Reader Float :=
  (do
    let negative ← sign
    let (whole, fraction) ← digitsAroundPoint
    return Text.doubleOf negative whole fraction (← exponent)) <|>
  (do anyCase ['n', 'a', 'n']; return Double.nan) <|>
  (do anyCase ['i', 'n', 'f']; return Double.infinity false)

end SignalBridge.Dbc.Atom
