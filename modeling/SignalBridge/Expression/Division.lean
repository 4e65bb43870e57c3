import SignalBridge.Text.Alphabetic
import SignalBridge.Text.Numeric

/-!
Decimal literals in expressions that divide. A whole number written in such an expression is given a
fraction, so that it is read as a double and dividing by it is exact division. Quoted parts are copied
as they stand; quotes are paired from left to right, with backslash escapes.
-/

namespace SignalBridge.Expression

/-- A letter, digit or other number character of any script. -/
def isWordChar (c : Char) : Bool :=
  Text.isAlphabetic c || Text.isNumeric c

/-- A digit after this character continues a name or a number. -/
def continuesBefore (c : Char) : Bool :=
  isWordChar c || c == '_' || c == '.' || c == ':'

/-- A character after digits that makes them part of a name or of a number with a fraction. -/
def continuesAfter (c : Char) : Bool :=
  isWordChar c || c == '_' || c == '.'

/-- Splits a text after its opening quote into the quoted part, with the closing quote if there is one,
and the rest. -/
def splitQuoted : List Char → List Char × List Char
  | [] => ([], [])
  | '"' :: s => (['"'], s)
  | '\\' :: c :: s =>
    let (quoted, rest) := splitQuoted s
    ('\\' :: c :: quoted, rest)
  | c :: s =>
    let (quoted, rest) := splitQuoted s
    (c :: quoted, rest)

theorem splitQuoted_append (s : List Char) : (splitQuoted s).1 ++ (splitQuoted s).2 = s := by
  fun_induction splitQuoted s <;> simp_all

theorem length_splitQuoted_le (s : List Char) : (splitQuoted s).2.length ≤ s.length := by
  have := congrArg List.length (splitQuoted_append s)
  simp only [List.length_append] at this
  omega

/-- Gives a fraction to the whole numbers of a text that follows the character `previous`. -/
def addFractions (previous : Option Char) : List Char → List Char
  | [] => []
  | '"' :: s => '"' :: (splitQuoted s).1 ++ addFractions (some '"') (splitQuoted s).2
  | c :: s =>
    if c.isDigit && !previous.any continuesBefore then
      let digits := s.takeWhile Char.isDigit
      let rest := s.dropWhile Char.isDigit
      let fraction := if rest.head?.any continuesAfter then [] else ['.', '0']
      c :: digits ++ fraction ++ addFractions (some c) rest
    else c :: addFractions (some c) s
termination_by s => s.length
decreasing_by
  · have := length_splitQuoted_le s
    simp; omega
  · have := (List.dropWhile_suffix (l := s) Char.isDigit).length_le
    simp; omega
  · simp

/-- The expression with a fraction given to its whole numbers. -/
def withFractions (source : String) : String :=
  String.ofList (addFractions none source.toList)

end SignalBridge.Expression
