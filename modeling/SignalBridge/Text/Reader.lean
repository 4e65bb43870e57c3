/-!
Readers of text. A reader takes what it recognises from the front of a text, or refuses, in which case
another reader may be tried at the same place. What is broken ends the whole reading.
-/

namespace SignalBridge.Text

/-- What is left of a text, and how much that is. -/
structure Rest where
  chars : List Char
  size : Nat
  size_eq : size = chars.length

namespace Rest

def ofList (s : List Char) : Rest :=
  { chars := s, size := s.length, size_eq := rfl }

/-- What is left after `n` more characters. -/
def drop (s : Rest) (n : Nat) : Rest :=
  { chars := s.chars.drop n, size := s.size - n, size_eq := by simp [s.size_eq] }

end Rest

/-- The outcome of a reader: a value with the rest of the text, a refusal, or a broken text. -/
inductive Reading (α : Type) where
  | found (a : α) (rest : Rest)
  | refused
  | broken

def Reader (α : Type) : Type :=
  Rest → Reading α

namespace Reader

def pure {α : Type} (a : α) : Reader α :=
  fun s => .found a s

def bind {α β : Type} (r : Reader α) (f : α → Reader β) : Reader β := fun s =>
  match r s with
  | .found a rest => f a rest
  | .refused => .refused
  | .broken => .broken

instance : Monad Reader where
  pure := pure
  bind := bind

def refuse {α : Type} : Reader α :=
  fun _ => .refused

/-- The first reader, or where it refuses the second. -/
def orElse {α : Type} (first : Reader α) (second : Unit → Reader α) : Reader α := fun s =>
  match first s with
  | .refused => second () s
  | reading => reading

instance {α : Type} : OrElse (Reader α) where
  orElse := orElse

/-- Breaks the text where a reader refuses. -/
def must {α : Type} (r : Reader α) : Reader α := fun s =>
  match r s with
  | .refused => .broken
  | reading => reading

/-- What a reader finds, if it does not refuse. -/
def optional {α : Type} (r : Reader α) : Reader (Option α) :=
  (do return some (← r)) <|> return none

/-- What a reader finds over and over, until it refuses. A reader must find something each time. -/
def many {α : Type} (r : Reader α) : Reader (List α) := fun s =>
  match r s with
  | .found a rest =>
    if rest.size < s.size then
      match many r rest with
      | .found as rest => .found (a :: as) rest
      | .refused => .refused
      | .broken => .broken
    else .refused
  | .refused => .found [] s
  | .broken => .broken
termination_by s => s.size

/-- Items with something between them, possibly none. -/
def separated {α β : Type} (item : Reader α) (between : Reader β) : Reader (List α) :=
  (do
    let a ← item
    let as ← many (do discard between; item)
    return a :: as) <|> return []

/-! ### Characters and words -/

/-- The characters at the front that satisfy a test, possibly none. -/
def takeWhile (test : Char → Bool) : Reader (List Char) := fun s =>
  let cs := s.chars.takeWhile test
  .found cs (s.drop cs.length)

/-- As `takeWhile`, but at least one character. -/
def takeSome (test : Char → Bool) : Reader (List Char) := do
  let cs ← takeWhile test
  if cs.isEmpty then refuse else return cs

/-- One character that satisfies a test. -/
def one (test : Char → Bool) : Reader Char := fun s =>
  match s.chars with
  | c :: _ => if test c then .found c (s.drop 1) else .refused
  | [] => .refused

/-- A given number of characters that all satisfy a test. -/
def exactly (n : Nat) (test : Char → Bool) : Reader (List Char) := fun s =>
  let cs := s.chars.take n
  if cs.length = n ∧ cs.all test then .found cs (s.drop n) else .refused

/-- A given character. -/
def char (c : Char) : Reader Unit :=
  discard (one (· == c))

/-- One of the characters of a table, with the value that it stands for. -/
def oneOf {α : Type} (table : List (Char × α)) : Reader α := fun s =>
  match s.chars.head?.bind (List.lookup · table) with
  | some a => .found a (s.drop 1)
  | none => .refused

/-- The given characters, one after the other. -/
def chars : List Char → Reader Unit
  | [] => return ()
  | c :: cs => do char c; chars cs

def word (s : String) : Reader Unit :=
  chars s.toList

/-- The given characters in any case. -/
def anyCase : List Char → Reader Unit
  | [] => return ()
  | c :: cs => do
    discard (one (·.toLower == c))
    anyCase cs

/-- An optional sign; the value says whether it is a minus. -/
def sign : Reader Bool :=
  oneOf [('-', true), ('+', false)] <|> return false

/-- Space or tab. -/
def isSpaceOrTab (c : Char) : Bool :=
  c == ' ' || c == '\t'

/-- A line feed, perhaps after a carriage return. -/
def lineEnd : Reader Unit :=
  char '\n' <|> (do char '\r'; char '\n')

/-- Nothing, at the end of the text. -/
def textEnd : Reader Unit := fun s =>
  if s.chars.isEmpty then .found () s else .refused

/-- What a reader finds in a whole text. -/
def whole? {α : Type} (r : Reader α) (s : List Char) : Option α :=
  match (do let a ← r; textEnd; return a : Reader α) (.ofList s) with
  | .found a _ => some a
  | _ => none

end Reader
end SignalBridge.Text
