import SignalBridge.Toml.Number
import SignalBridge.Toml.Quoted
import SignalBridge.Toml.Time
import SignalBridge.Toml.Tree

/-!
TOML text: lines with a key and its value, headers of tables, and comments.
-/

namespace SignalBridge.Toml

open Text (Reader)
open Text.Reader

/-! ### Spaces and comments -/

def spaces : Reader Unit :=
  discard (takeWhile isSpaceOrTab)

/-- A comment, up to the end of its line. -/
def comment : Reader Unit := do
  char '#'
  discard (takeWhile Quoted.isPlain)

/-- Spaces, line ends, and comments that end with their line. -/
def gap : Reader Unit := do
  discard (many do
    spaces
    discard (optional comment)
    lineEnd)
  spaces

/-- What may follow on the line of a statement, with the end of the line or of the text. -/
def restOfLine : Reader Unit := do
  spaces
  discard (optional comment)
  lineEnd <|> textEnd

/-! ### Keys and values -/

def isBare (c : Char) : Bool :=
  c.isAlphanum || c == '-' || c == '_'

/-- One part of a key, bare or in quotes. -/
def keyPart : Reader String := do
  spaces
  let name ← Quoted.inLine '"' Quoted.doubleQuotedChar <|> Quoted.inLine '\'' Quoted.singleQuotedChar <|>
    (do return String.ofList (← takeSome isBare))
  spaces
  return name

def key : Reader Key := do
  let parts ← separated keyPart (char '.')
  match parts.reverse with
  | [] => refuse
  | name :: before => if parts.length ≤ maxNesting then return { path := before.reverse, name } else refuse

def keyAndValue (value : Reader Value) : Reader (Key × Value) := do
  let key ← key
  char '='
  spaces
  return (key, ← value)

/-- A value that is no array and no table. -/
def simpleValue : Reader Value :=
  (do return .string (← Quoted.text)) <|>
  (do Time.moment; return .time) <|>
  (do return .float (← Number.float)) <|>
  (do return .integer (← Number.integer)) <|>
  (do word "true"; return .boolean true) <|>
  (do word "false"; return .boolean false)

/-- An array, which may span lines and end in a comma. -/
def array (value : Reader Value) : Reader Value := do
  char '['
  let items ← separated (do gap; let v ← value; gap; return v) (char ',')
  if !items.isEmpty then discard (optional (char ','))
  gap
  char ']'
  return .array items

/-- A table in braces, on one line. -/
def inlineTable (value : Reader Value) : Reader Value := do
  char '\x7b'
  let members ← separated (do let kv ← keyAndValue value; spaces; return kv) (char ',')
  spaces
  char '\x7d'
  match members.foldlM (fun ms (key, v) => Members.assign key v ms) ([] : Members) with
  | some members => return .table (Members.table members)
  | none => refuse

/-- A value with at most `depth` arrays and tables around any part of it. -/
def value : Nat → Reader Value
  | 0 => simpleValue
  | depth + 1 => simpleValue <|> array (value depth) <|> inlineTable (value depth)

/-! ### Statements -/

def assignment : Reader Statement := do
  let (key, v) ← keyAndValue (value maxNesting)
  restOfLine
  return .assign key v

def tablesHeader : Reader Statement := do
  word "[["
  let key ← key
  word "]]"
  restOfLine
  return .appendTable key

def tableHeader : Reader Statement := do
  char '['
  let key ← key
  char ']'
  restOfLine
  return .openTable key

/-- A statement, or a line with none. -/
def line : Reader (Option Statement) := do
  let statement ← (do lineEnd; return none) <|> (do comment; restOfLine; return none) <|>
    some <$> (tablesHeader <|> tableHeader <|> assignment)
  spaces
  return statement

def document : Reader (List Statement) := do
  discard (optional (char '\ufeff'))
  spaces
  return (← many line).filterMap id

/-- The table that a text holds. -/
def parse? (s : List Char) : Option Table :=
  (document.whole? s).bind tableOf?

end SignalBridge.Toml
