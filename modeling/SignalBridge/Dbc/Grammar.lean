import SignalBridge.Dbc.Atom
import SignalBridge.Dbc.Declaration

/-!
The sections of a database text. Messages with their signals are kept; every other section only has to
be well formed.
-/

namespace SignalBridge.Dbc

open Text (Reader Reading)
open Text.Reader
open Atom

/-! ### Common parts -/

/-- The key word of an item, after any gap, with a space after it. -/
def key (s : String) : Reader Unit := do
  gap
  word s
  spaces

/-- The semicolon and line end that close an item. -/
def semicolonEnd : Reader Unit := do
  char ';'
  lineEnd

def byteOrder : Reader ByteOrder :=
  oneOf [('1', .little), ('0', .big)]

/-- The sign mark of a signal: whether its values are signed. -/
def signedness : Reader Bool :=
  oneOf [('-', true), ('+', false)]

/-- Two numbers in brackets with something between them. -/
def numberPair (opening between closing : Char) : Reader (Float × Float) := do
  char opening
  let a ← decimal
  char between
  let b ← decimal
  char closing
  return (a, b)

/-- A number or a quoted text. -/
def attributeValue : Reader Unit :=
  discard decimal <|> discard quoted

/-- A number with its description. -/
def described : Reader Unit := do
  discard decimal
  spaces
  discard quoted

/-- A sending node; the stock name for none stands for no sender. -/
def transmitter : Reader (Option String) :=
  (do word "Vector__XXX"; return none) <|> (do return some (← name))

/-- A node with access to a variable; the stock name stands for all nodes. -/
def accessNode : Reader Unit :=
  word "VECTOR_XXX" <|> discard name

/-! ### Messages -/

/-- The multiplexing mark between the name of a signal and its colon, with the spaces around it. -/
def multiplexing : Reader Multiplexing :=
  (do spaces; char 'm'; let k ← natural64; spaces; return .selected k) <|>
  (do spaces; char 'M'; spaces; return .multiplexer) <|>
  (do spaces; char 'm'; let k ← natural64; char 'M'; spaces; return .selectedMultiplexer k) <|>
  (do spaces; return .none)

def signal : Reader SignalDeclaration := do
  key "SG_"
  let name ← name
  let multiplexing ← multiplexing
  char ':'
  spaces
  let start ← natural64
  char '|'
  let length ← natural64
  char '@'
  let order ← byteOrder
  let signed ← signedness
  spaces
  let (factor, offset) ← numberPair '(' ',' ')'
  spaces
  let (least, greatest) ← numberPair '[' '|' ']'
  spaces
  let unit ← quoted
  spaces
  discard (separated Atom.name (char ','))
  lineEnd
  return { name, multiplexing, start, length, order, signed, factor, offset, least, greatest, unit }

def message : Reader MessageDeclaration := do
  key "BO_"
  let identifier ← natural32
  spaces
  let name ← name
  char ':'
  spaces
  let size ← natural64
  spaces
  let sender ← transmitter
  let signals ← many signal
  return { identifier, name, size, sender, signals }

/-! ### Items that are only checked -/

def version : Reader Unit := do
  key "VERSION"
  discard quoted
  lineEnd

def newSymbols : Reader Unit := do
  gap
  word "NS_ :"
  discard (takeWhile isSpaceOrTab)
  lineEnd
  discard (many do
    discard (takeSome isSpaceOrTab)
    discard name
    lineEnd)

def bitTiming : Reader Unit := do
  gap
  word "BS_:"
  discard (optional do
    spaces
    separated natural64 (char ','))

def nodes : Reader Unit := do
  gap
  word "BU_:"
  discard (optional do
    spaces
    separated name spaces)
  discard (takeWhile isSpaceOrTab)
  lineEnd

def valueTable : Reader Unit := do
  key "VAL_TABLE_"
  discard name
  discard (many do anySpaces; described)
  anySpaces
  semicolonEnd

def transmitters : Reader Unit := do
  key "BO_TX_BU_"
  discard natural32
  spaces
  char ':'
  spaces
  discard (separated transmitter (char ','))
  semicolonEnd

def environmentVariable : Reader Unit := do
  key "EV_"
  discard name
  char ':'
  spaces
  discard (oneOf [('0', ()), ('1', ()), ('2', ())])
  spaces
  char '['
  discard integer64
  char '|'
  discard integer64
  char ']'
  spaces
  discard quoted
  spaces
  discard decimal
  spaces
  discard integer64
  spaces
  word "DUMMY_NODE_VECTOR"
  discard (oneOf [('0', ()), ('1', ()), ('2', ()), ('3', ())])
  spaces
  discard (separated accessNode (char ','))
  semicolonEnd

def environmentData : Reader Unit := do
  key "ENVVAR_DATA_"
  discard name
  char ':'
  spaces
  discard natural64
  semicolonEnd

def signalType : Reader Unit := do
  key "SGTYPE_"
  discard name
  char ':'
  spaces
  discard natural64
  char '@'
  discard byteOrder
  discard signedness
  spaces
  discard (numberPair '(' ',' ')')
  spaces
  discard (numberPair '[' '|' ']')
  spaces
  discard quoted
  spaces
  discard decimal
  spaces
  discard name
  semicolonEnd

def comment : Reader Unit := do
  key "CM_"
  (do word "BU_"; spaces; discard name; spaces; discard quoted) <|>
    (do word "BO_"; spaces; discard natural32; spaces; discard quoted) <|>
    (do anySpaces; word "EV_"; spaces; discard name; spaces; discard quoted) <|>
    (do word "SG_"; spaces; discard natural32; spaces; discard name; spaces; discard quoted) <|>
    discard quoted
  semicolonEnd

def attributeDefinition : Reader Unit := do
  key "BA_DEF_"
  discard (takeWhile (· != ';'))
  semicolonEnd

def attributeDefault : Reader Unit := do
  key "BA_DEF_DEF_"
  discard quoted
  spaces
  attributeValue
  semicolonEnd

def attributeOfObject : Reader Unit := do
  key "BA_"
  discard quoted
  spaces
  (do word "BU_"; spaces; discard name; spaces; attributeValue) <|>
    (do word "BO_"; spaces; discard natural32; spaces; discard (optional attributeValue)) <|>
    (do word "SG_"; spaces; discard natural32; spaces; discard name; spaces; attributeValue) <|>
    (do word "EV_"; spaces; discard name; spaces; attributeValue) <|>
    attributeValue
  semicolonEnd

def valueDescriptions : Reader Unit := do
  key "VAL_"
  (do discard natural32; spaces; discard name) <|> discard name
  discard (many do spaces; described)
  discard (optional spaces)
  semicolonEnd

def signalTypeReference : Reader Unit := do
  key "SGTYPE_"
  discard natural32
  spaces
  discard name
  spaces
  char ':'
  spaces
  discard name
  semicolonEnd

def signalGroup : Reader Unit := do
  key "SIG_GROUP_"
  discard natural32
  spaces
  discard name
  spaces
  discard natural64
  spaces
  char ':'
  spaces
  discard (separated name spaces)
  semicolonEnd

def extendedValueType : Reader Unit := do
  key "SIG_VALTYPE_"
  discard natural32
  spaces
  discard name
  spaces
  discard (optional (char ':'))
  spaces
  discard (oneOf [('0', ()), ('1', ()), ('2', ())])
  semicolonEnd

def extendedMultiplexing : Reader Unit := do
  key "SG_MUL_VAL_"
  discard natural32
  spaces
  discard name
  spaces
  discard name
  spaces
  discard (separated (do anySpaces; discard natural64; char '-'; natural64) (char ','))
  semicolonEnd

/-! ### The whole text -/

/-- A run of items that are only checked. -/
def checked (item : Reader Unit) : Reader (List MessageDeclaration) := do
  discard (many item)
  return []

/-- The sections that may be left out, in the order in which they must come. -/
def optionalSections : List (Reader (List MessageDeclaration)) :=
  [ do discard (optional bitTiming); return [],
    checked nodes, checked valueTable, many message, checked transmitters, checked environmentVariable,
    checked environmentData, checked signalType, checked comment, checked attributeDefinition,
    checked attributeDefault, checked attributeOfObject, checked valueDescriptions,
    checked signalTypeReference, checked signalGroup, checked extendedValueType,
    checked extendedMultiplexing ]

/-- The first of the readers that does not refuse, with the readers that are left. -/
def takeFirst : List (Reader Unit) → Reader (List (Reader Unit))
  | [], _ => .refused
  | r :: rs, s =>
    match r s with
    | .found () rest => .found rs rest
    | .broken => .broken
    | .refused =>
      match takeFirst rs s with
      | .found left rest => .found (r :: left) rest
      | .broken => .broken
      | .refused => .refused

theorem length_takeFirst_lt {rs left : List (Reader Unit)} {s rest : Text.Rest}
    (h : takeFirst rs s = .found left rest) : left.length < rs.length := by
  induction rs generalizing left with
  | nil => cases h
  | cons r rs ih =>
    unfold takeFirst at h
    split at h
    · cases h; simp
    · cases h
    · split at h
      · rename_i ht
        cases h
        have := ih ht
        simp; omega
      · cases h
      · cases h

/-- As many of the required sections as come next, in any order; the others are left. -/
def takeRequired (required : List (Reader Unit)) : Reader (List (Reader Unit)) := fun s =>
  match _h : takeFirst required s with
  | .found left rest => takeRequired left rest
  | .broken => .broken
  | .refused => .found required s
termination_by required.length
decreasing_by exact length_takeFirst_lt _h

/-- The sections of a text. The required ones may stand anywhere between the others. -/
def sections : List (Reader Unit) → List (Reader (List MessageDeclaration)) →
    Reader (List MessageDeclaration)
  | required, [] => do
    let left ← takeRequired required
    if left.isEmpty then return [] else refuse
  | required, r :: rs => do
    let left ← takeRequired required
    let messages ← r
    return messages ++ (← sections left rs)

/-- The messages of a whole database text. -/
def document : Reader (List MessageDeclaration) := do
  let messages ← sections [version, newSymbols] optionalSections
  gap
  return messages

end SignalBridge.Dbc
