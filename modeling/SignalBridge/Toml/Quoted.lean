import SignalBridge.Text.Number
import SignalBridge.Text.Reader

/-!
Text in quotes. Double quotes allow escapes and single quotes do not. Three quotes enclose text that may
span lines; a line end directly after the opening quotes does not count, and the line ends in the text
are line feeds however they are written.
-/

namespace SignalBridge.Toml.Quoted

open Text (Reader)
open Text.Reader

/-- A character that may stand for itself in a line: no control character except the tab. -/
def isPlain (c : Char) : Bool :=
  c == '\t' || (0x20 ≤ c.toNat && c.toNat != 0x7f)

/-- The character whose number is given by hexadecimal digits. -/
def numbered (width : Nat) : Reader Char := do
  let n := Text.hexOf (← exactly width Text.isHexDigit)
  if n.isValidChar then return Char.ofNat n else refuse

/-- An escaped character. -/
def escaped : Reader Char := do
  char '\\'
  oneOf [('b', '\x08'), ('t', '\t'), ('n', '\n'), ('f', '\x0c'), ('r', '\r'), ('"', '"'), ('\\', '\\')]
    <|> (do char 'u'; numbered 4) <|> (do char 'U'; numbered 8)

/-- A character between double quotes. -/
def doubleQuotedChar : Reader Char :=
  one (fun c => isPlain c && c != '"' && c != '\\') <|> escaped

/-- A character between single quotes. -/
def singleQuotedChar : Reader Char :=
  one fun c => isPlain c && c != '\''

/-- Text within a line, between quotes `q`. -/
def inLine (q : Char) (inside : Reader Char) : Reader String := do
  char q
  let cs ← many inside
  char q
  return String.ofList cs

/-! ### Text that spans lines -/

/-- A backslash at the end of a line, with the white space up to the next character. -/
def continuation : Reader Unit := do
  char '\\'
  discard (takeWhile isSpaceOrTab)
  lineEnd
  discard (many (discard (one isSpaceOrTab) <|> lineEnd))

/-- One or two quotes `q` that stand in the text. -/
def innerQuotes (q : Char) : Reader (List Char) := fun s =>
  let quotes := (s.chars.take 3).takeWhile (· == q)
  if quotes.length = 1 ∨ quotes.length = 2 then .found quotes (s.drop quotes.length) else .refused

/-- The closing quotes; up to two more in front of them belong to the text. -/
def closingQuotes (q : Char) : Reader (List Char) :=
  (do chars [q, q, q, q, q]; return [q, q]) <|>
  (do chars [q, q, q, q]; return [q]) <|>
  (do chars [q, q, q]; return [])

/-- Text over several lines, between three quotes `q` at either end. -/
def overLines (q : Char) (inside : Reader (List Char)) : Reader String := do
  chars [q, q, q]
  discard (optional lineEnd)
  let parts ← many (inside <|> (do lineEnd; return ['\n']) <|> innerQuotes q)
  let more ← closingQuotes q
  return String.ofList (parts.flatten ++ more)

/-- Text in quotes of any kind. -/
def text : Reader String :=
  overLines '"' ((do continuation; return []) <|> (do return [← doubleQuotedChar])) <|>
  inLine '"' doubleQuotedChar <|>
  overLines '\'' (do return [← singleQuotedChar]) <|>
  inLine '\'' singleQuotedChar

end SignalBridge.Toml.Quoted
