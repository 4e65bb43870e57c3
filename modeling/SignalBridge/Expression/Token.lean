import SignalBridge.Expression.Value
import SignalBridge.Outcome
import SignalBridge.Text.Blank

/-!
Tokens of the expression language. Reading takes two steps. The text is first cut into pieces: literal
words, quoted texts, blanks and single marks; comments leave nothing behind. The pieces are then joined
into tokens, the longest first.
-/

namespace SignalBridge.Expression

/-- A piece of an expression: a quoted text, a word of ordinary characters, a blank, or one mark. -/
inductive Piece
  | text (s : String)
  | word (s : List Char)
  | blank
  | mark (c : Char)
deriving DecidableEq

/-- The characters that stand for themselves. -/
def marks : List Char :=
  ['+', '-', '*', '/', '%', '^', '(', ')', ',', ';', '=', '!', '>', '<', '&', '|']

/-- The piece that one character makes. -/
def pieceOf (c : Char) : Piece :=
  if marks.contains c then .mark c else if Text.isBlank c then .blank else .word [c]

/-- A quoted text after its opening quote, with the rest after the closing one. Only quotes and
backslashes can be escaped. -/
def scanText : List Char → Except Fault (List Char × List Char)
  | [] => .error .unclosedText
  | '"' :: s => .ok ([], s)
  | '\\' :: c :: s =>
    if c = '"' ∨ c = '\\' then (scanText s).map fun (t, rest) => (c :: t, rest)
    else .error (.illegalEscape (String.ofList ['\\', c]))
  | ['\\'] => .error (.illegalEscape "\\")
  | c :: s => (scanText s).map fun (t, rest) => (c :: t, rest)

/-- What follows the first `*/`. -/
def afterComment? : List Char → Option (List Char)
  | [] => none
  | '*' :: '/' :: s => some s
  | _ :: s => afterComment? s

theorem length_scanText_le {s t rest : List Char} (h : scanText s = .ok (t, rest)) :
    rest.length ≤ s.length := by
  fun_induction scanText s generalizing t with
  | case3 c s _ ih | case6 c s _ _ _ ih =>
    obtain ⟨⟨u, r⟩, hr, heq⟩ := map_eq_ok.mp h
    cases heq
    have := ih hr
    simp; omega
  | _ => grind

theorem length_afterComment_le {s rest : List Char} (h : afterComment? s = some rest) :
    rest.length ≤ s.length := by
  fun_induction afterComment? s with grind

/-- Puts a piece in front of others; words join. -/
def joinPiece : Piece → List Piece → List Piece
  | .word a, .word b :: pieces => .word (a ++ b) :: pieces
  | p, pieces => p :: pieces

/-- The pieces of a text. -/
def pieces : List Char → Except Fault (List Piece)
  | [] => .ok []
  | '"' :: s =>
    match _h : scanText s with
    | .ok (t, rest) => (pieces rest).map (joinPiece (.text (String.ofList t)))
    | .error e => .error e
  | '/' :: '/' :: s => pieces ((s.dropWhile (· != '\n')).drop 1)
  | '/' :: '*' :: s =>
    match _h : afterComment? s with
    | some rest => pieces rest
    | none => .error .unclosedComment
  | c :: s => (pieces s).map (joinPiece (pieceOf c))
termination_by s => s.length
decreasing_by
  · have := length_scanText_le _h
    simp; omega
  · have := (List.dropWhile_suffix (l := s) (· != '\n')).length_le
    simp; omega
  · have := length_afterComment_le _h
    simp; omega
  · simp

/-! ### Tokens -/

/-- An operator between two operands. -/
inductive Binary
  | arithmetic (a : Arithmetic)
  | power
  | equal
  | unequal
  | greater
  | less
  | atLeast
  | atMost
  | and
  | or
deriving DecidableEq, Repr

/-- A constant written in an expression. -/
inductive Constant
  | text (s : String)
  | double (x : Float)
  | integer (i : Int64)
  | boolean (b : Bool)
deriving DecidableEq

def Constant.value : Constant → Value
  | text s => .text s
  | double x => .double x
  | integer i => .integer i
  | boolean b => .boolean b

inductive Token
  | constant (c : Constant)
  | identifier (name : String)
  | opening
  | closing
  | comma
  | semicolon
  | minus
  | not
  | binary (b : Binary)
  | assign
  | updateAssign (b : Binary)
deriving DecidableEq

/-- The 64-bit integer that a word denotes: decimal digits, or hexadecimal digits after `0x`. -/
def readInteger? (s : List Char) : Option Int64 :=
  let n? : Option Nat :=
    match s with
    | '0' :: 'x' :: digits =>
      if !digits.isEmpty && digits.all Text.isHexDigit then some (Text.hexOf digits) else none
    | digits => if !digits.isEmpty && digits.all Char.isDigit then some (Text.wholeOf digits) else none
  n?.bind (int64? ·)

/-- The constant that a word denotes by itself. -/
def readConstant? (s : List Char) : Option Constant :=
  match readInteger? s with
  | some i => some (.integer i)
  | none =>
    match Text.readDouble? s with
    | some x => some (.double x)
    | none =>
      if s = "true".toList then some (.boolean true)
      else if s = "false".toList then some (.boolean false)
      else none

/-- The double that a word, a sign and another word denote together, as `1e-3`. -/
def readSplitDouble? (s : List Char) : List Piece → Option Float
  | .mark c :: .word t :: _ => if c = '+' ∨ c = '-' then Text.readDouble? (s ++ c :: t) else none
  | _ => none

/-- The piece as messages show it. -/
def Piece.display : Piece → String
  | .text s => Text.quote s
  | .word s => String.ofList s
  | .blank => " "
  | .mark c => String.ofList [c]

/-- The operator that a mark is by itself. -/
def markBinary? : Char → Option Binary
  | '+' => some (.arithmetic .add)
  | '-' => some (.arithmetic .subtract)
  | '*' => some (.arithmetic .multiply)
  | '/' => some (.arithmetic .divide)
  | '%' => some (.arithmetic .remainder)
  | '^' => some .power
  | '>' => some .greater
  | '<' => some .less
  | _ => none

/-- The token that a mark makes by itself. -/
def markToken? : Char → Option Token
  | '(' => some .opening
  | ')' => some .closing
  | ',' => some .comma
  | ';' => some .semicolon
  | '=' => some .assign
  | '!' => some .not
  | '-' => some .minus
  | c => (markBinary? c).map .binary

/-- The token that a mark makes together with `=` after it. -/
def markEqualsToken? : Char → Option Token
  | '=' => some (.binary .equal)
  | '!' => some (.binary .unequal)
  | '>' => some (.binary .atLeast)
  | '<' => some (.binary .atMost)
  | c => if ['+', '-', '*', '/', '%', '^'].contains c then (markBinary? c).map .updateAssign else none

/-- The token that a mark makes together with the piece after it. -/
def pairToken? (c : Char) : List Piece → Option Token
  | .mark '=' :: _ => markEqualsToken? c
  | _ => none

/-- The tokens that pieces make. -/
def joinPieces : List Piece → Except Fault (List Token)
  | [] => .ok []
  | .text s :: ps => (joinPieces ps).map (.constant (.text s) :: ·)
  | .blank :: ps => joinPieces ps
  | .word s :: ps =>
    match readConstant? s with
    | some c => (joinPieces ps).map (.constant c :: ·)
    | none =>
      match readSplitDouble? s ps with
      | some x => (joinPieces (ps.drop 2)).map (.constant (.double x) :: ·)
      | none => (joinPieces ps).map (.identifier (String.ofList s) :: ·)
  | .mark '&' :: .mark '&' :: .mark '=' :: ps => (joinPieces ps).map (.updateAssign .and :: ·)
  | .mark '|' :: .mark '|' :: .mark '=' :: ps => (joinPieces ps).map (.updateAssign .or :: ·)
  | .mark '&' :: .mark '&' :: ps => (joinPieces ps).map (.binary .and :: ·)
  | .mark '|' :: .mark '|' :: ps => (joinPieces ps).map (.binary .or :: ·)
  | .mark c :: ps =>
    match pairToken? c ps with
    | some t => (joinPieces (ps.drop 1)).map (t :: ·)
    | none =>
      match markToken? c with
      | some t => (joinPieces ps).map (t :: ·)
      | none => .error (.strayMark (String.ofList [c]) (ps.head?.map Piece.display))
termination_by ps => ps.length
decreasing_by all_goals simp; try omega

/-- The tokens of an expression. -/
def tokenize (s : String) : Except Fault (List Token) :=
  (pieces s.toList).bind joinPieces

end SignalBridge.Expression
