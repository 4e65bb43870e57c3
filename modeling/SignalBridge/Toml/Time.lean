import SignalBridge.Text.Number
import SignalBridge.Text.Reader

/-!
Dates and times: `1979-05-27`, `07:32:00.5`, and both with a `T` or a space between them, perhaps with the
offset of a time zone. They are checked and nothing of them is kept.
-/

namespace SignalBridge.Toml.Time

open Text (Reader)
open Text.Reader

/-- A number of a fixed count of digits within bounds. -/
def fixed (width least greatest : Nat) : Reader Nat := do
  let n := Text.wholeOf (← exactly width Char.isDigit)
  if least ≤ n ∧ n ≤ greatest then return n else refuse

def isLeap (year : Nat) : Bool :=
  year % 4 == 0 && (year % 100 != 0 || year % 400 == 0)

def daysIn (year month : Nat) : Nat :=
  if month = 2 then (if isLeap year then 29 else 28)
  else if month = 4 ∨ month = 6 ∨ month = 9 ∨ month = 11 then 30
  else 31

def date : Reader Unit := do
  let year ← fixed 4 0 9999
  char '-'
  let month ← fixed 2 1 12
  char '-'
  discard (fixed 2 1 (daysIn year month))

def hourAndMinute : Reader Unit := do
  discard (fixed 2 0 23)
  char ':'
  discard (fixed 2 0 59)

/-- A time of day. Its seconds may be 60, for a leap second. -/
def timeOfDay : Reader Unit := do
  hourAndMinute
  char ':'
  discard (fixed 2 0 60)
  discard (optional do
    char '.'
    takeSome Char.isDigit)

/-- The offset of a time zone. -/
def offset : Reader Unit :=
  oneOf [('Z', ()), ('z', ())] <|> (do
    oneOf [('+', ()), ('-', ())]
    hourAndMinute)

/-- A date, a time of day, or both. -/
def moment : Reader Unit :=
  (do
    date
    discard (optional do
      oneOf [('T', ()), ('t', ()), (' ', ())]
      timeOfDay
      optional offset)) <|>
  timeOfDay

end SignalBridge.Toml.Time
