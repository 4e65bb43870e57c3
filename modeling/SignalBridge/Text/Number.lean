import SignalBridge.Double.Parts

/-!
Numbers in text: runs of digits, and decimal numbers with a fraction and an exponent.
-/

namespace SignalBridge.Text

/-- The digits at the front of a text, and the rest. -/
def spanDigits (s : List Char) : List Char × List Char :=
  (s.takeWhile Char.isDigit, s.dropWhile Char.isDigit)

theorem spanDigits_append (s : List Char) : (spanDigits s).1 ++ (spanDigits s).2 = s :=
  List.takeWhile_append_dropWhile

theorem length_spanDigits_le (s : List Char) : (spanDigits s).2.length ≤ s.length :=
  (List.dropWhile_suffix _).length_le

theorem spanDigits_of_digits {digits rest : List Char} (hdigits : digits.all Char.isDigit = true)
    (hrest : rest.head?.any Char.isDigit = false) : spanDigits (digits ++ rest) = (digits, rest) := by
  have hstop : rest.takeWhile Char.isDigit = [] ∧ rest.dropWhile Char.isDigit = rest := by
    cases rest with
    | nil => exact ⟨rfl, rfl⟩
    | cons c rest => simp_all
  rw [List.all_eq_true] at hdigits
  rw [spanDigits, List.takeWhile_append_of_pos hdigits, List.dropWhile_append_of_pos hdigits, hstop.1, hstop.2,
    List.append_nil]

/-- The value of a decimal digit. -/
def digitValue (c : Char) : Nat :=
  c.toNat - '0'.toNat

/-- The whole number that decimal digits denote. -/
def wholeOf (digits : List Char) : Nat :=
  digits.foldl (fun n c => 10 * n + digitValue c) 0

def isHexDigit (c : Char) : Bool :=
  c.isDigit || ('a' ≤ c && c ≤ 'f') || ('A' ≤ c && c ≤ 'F')

/-- The value of a hexadecimal digit of either case. -/
def hexValue (c : Char) : Nat :=
  if c.isDigit then digitValue c
  else if 'a' ≤ c then c.toNat - 'a'.toNat + 10
  else c.toNat - 'A'.toNat + 10

/-- The whole number that hexadecimal digits denote. -/
def hexOf (digits : List Char) : Nat :=
  digits.foldl (fun n c => 16 * n + hexValue c) 0

/-- A whole number in decimal. -/
def writeInt (i : Int) : List Char :=
  if i < 0 then '-' :: Nat.toDigits 10 i.natAbs else Nat.toDigits 10 i.natAbs

/-- The double nearest to `whole.fraction · 10 ^ exponent`. -/
def doubleOf (negative : Bool) (whole fraction : List Char) (exponent : Int) : Float :=
  Double.ofDecimal negative (wholeOf (whole ++ fraction)) (exponent - fraction.length)

/-- An exponent mark with digits after it, at the front of a text. -/
def readExponent? : List Char → Option (Int × List Char)
  | c :: s =>
    if c = 'e' ∨ c = 'E' then
      let (negative, s) : Bool × List Char :=
        match s with
        | '-' :: s => (true, s)
        | '+' :: s => (false, s)
        | s => (false, s)
      let (digits, rest) := spanDigits s
      if digits.isEmpty then none
      else some (if negative then -(wholeOf digits : Int) else wholeOf digits, rest)
    else none
  | [] => none

/-- The fraction after a point at the front of a text; without a point it is empty. -/
def readFraction : List Char → List Char × List Char
  | '.' :: s => spanDigits s
  | s => ([], s)

/-- The double a whole text denotes: digits with an optional point and exponent, at least one digit
before or after the point, or one of the words for infinity and NaN in any case. -/
def readUnsignedDouble? (negative : Bool) (s : List Char) : Option Float :=
  let word := s.map Char.toLower
  if word = "inf".toList ∨ word = "infinity".toList then some (Double.infinity negative)
  else if word = "nan".toList then some Double.nan
  else
    let (whole, s) := spanDigits s
    let (fraction, s) := readFraction s
    if whole.isEmpty && fraction.isEmpty then none
    else match s with
      | [] => some (doubleOf negative whole fraction 0)
      | s => match readExponent? s with
        | some (exponent, []) => some (doubleOf negative whole fraction exponent)
        | _ => none

/-- As `readUnsignedDouble?`, after an optional sign. -/
def readDouble? : List Char → Option Float
  | '-' :: s => readUnsignedDouble? true s
  | '+' :: s => readUnsignedDouble? false s
  | s => readUnsignedDouble? false s

end SignalBridge.Text
