import SignalBridge.Text.Number

/-!
JSON text as written: literals keep their spelling and escapes are not yet joined. What a reader then
demands of the literals (numbers in range, surrogates in pairs, a bound on nesting) is decided where the
value is used, because a value that nobody looks at only has to be well formed.
-/

namespace SignalBridge.Json

/-- One element of a string: a character, or a UTF-16 code unit given by `\u`. -/
inductive TextUnit
  | char (c : Char)
  | code (n : Nat)
deriving DecidableEq, Repr

/-- A number as written. The sign and digits of the exponent are kept as a whole number. -/
structure Literal where
  negative : Bool
  whole : List Char
  fraction : Option (List Char)
  exponent : Option Int
deriving DecidableEq, Repr

inductive Raw
  | null
  | boolean (b : Bool)
  | number (l : Literal)
  | string (s : List TextUnit)
  | array (items : List Raw)
  | object (members : List (List TextUnit × Raw))

/-! ### Tokens -/

inductive Token
  | openArray
  | closeArray
  | openObject
  | closeObject
  | comma
  | colon
  | null
  | boolean (b : Bool)
  | number (l : Literal)
  | string (s : List TextUnit)

/-- Space, tab and the two line-end characters. -/
def isSpace (c : Char) : Bool :=
  c == ' ' || c == '\n' || c == '\t' || c == '\r'

/-- The character that a one-letter escape stands for. -/
def escaped? : Char → Option Char
  | '"' => some '"'
  | '\\' => some '\\'
  | '/' => some '/'
  | 'b' => some '\x08'
  | 'f' => some '\x0c'
  | 'n' => some '\n'
  | 'r' => some '\r'
  | 't' => some '\t'
  | _ => none

/-- A string after its opening quote, up to and with the closing one. Control characters must be
escaped. -/
def scanString : List Char → Option (List TextUnit × List Char)
  | '"' :: s => some ([], s)
  | '\\' :: 'u' :: a :: b :: c :: d :: s =>
    if [a, b, c, d].all Text.isHexDigit then
      (scanString s).map fun (units, rest) => (.code (Text.hexOf [a, b, c, d]) :: units, rest)
    else none
  | '\\' :: c :: s =>
    match escaped? c with
    | some e => (scanString s).map fun (units, rest) => (.char e :: units, rest)
    | none => none
  | c :: s =>
    if c.toNat < 32 || c = '\\' then none
    else (scanString s).map fun (units, rest) => (.char c :: units, rest)
  | [] => none

theorem length_scanString_lt {s : List Char} {units : List TextUnit} {rest : List Char}
    (h : scanString s = some (units, rest)) : rest.length < s.length := by
  fun_induction scanString s generalizing units rest with
  | case1 s => grind
  | case2 a b c d s _ ih | case4 c s _ e _ ih | case7 c s _ _ _ _ ih =>
    obtain ⟨⟨u, r⟩, hr, heq⟩ := Option.map_eq_some_iff.1 h
    have := ih hr
    grind
  | case3 | case5 | case6 | case8 => grind

/-- An optional minus sign. -/
def scanSign : List Char → Bool × List Char
  | '-' :: s => (true, s)
  | s => (false, s)

/-- An optional point, which needs a digit after it. -/
def scanFraction : List Char → Option (Option (List Char) × List Char)
  | '.' :: s =>
    let (digits, rest) := Text.spanDigits s
    if digits.isEmpty then none else some (some digits, rest)
  | s => some (none, s)

/-- An optional exponent, which needs a digit after its mark. -/
def scanExponent (s : List Char) : Option (Option Int × List Char) :=
  match s with
  | 'e' :: _ | 'E' :: _ => (Text.readExponent? s).map fun (exponent, rest) => (some exponent, rest)
  | s => some (none, s)

/-- A number: no zeros in front, and digits on both sides of a point. -/
def scanNumber (s : List Char) : Option (Literal × List Char) :=
  let (negative, s) := scanSign s
  let (whole, s) := Text.spanDigits s
  if whole.isEmpty || (whole.length != 1 && whole.head? == some '0') then none
  else (scanFraction s).bind fun (fraction, s) =>
    (scanExponent s).map fun (exponent, s) => (⟨negative, whole, fraction, exponent⟩, s)

/-- The word `null`, `true` or `false`. -/
def scanWord : List Char → Option (Token × List Char)
  | 'n' :: 'u' :: 'l' :: 'l' :: s => some (.null, s)
  | 't' :: 'r' :: 'u' :: 'e' :: s => some (.boolean true, s)
  | 'f' :: 'a' :: 'l' :: 's' :: 'e' :: s => some (.boolean false, s)
  | _ => none

/-- The token at the front of a text. -/
def scanToken : List Char → Option (Token × List Char)
  | '[' :: s => some (.openArray, s)
  | ']' :: s => some (.closeArray, s)
  | '\x7b' :: s => some (.openObject, s)
  | '\x7d' :: s => some (.closeObject, s)
  | ',' :: s => some (.comma, s)
  | ':' :: s => some (.colon, s)
  | '"' :: s => (scanString s).map fun (units, rest) => (.string units, rest)
  | c :: s =>
    if c = '-' ∨ c.isDigit then (scanNumber (c :: s)).map fun (l, rest) => (.number l, rest)
    else scanWord (c :: s)
  | [] => none

theorem length_scanSign_le (s : List Char) : (scanSign s).2.length ≤ s.length := by
  unfold scanSign; split <;> simp

theorem length_scanFraction_le {s : List Char} {fraction : Option (List Char)} {rest : List Char}
    (h : scanFraction s = some (fraction, rest)) : rest.length ≤ s.length := by
  unfold scanFraction at h
  split at h
  · rename_i s
    have := Text.length_spanDigits_le s
    grind
  · grind

theorem length_readExponent_lt {s : List Char} {exponent : Int} {rest : List Char}
    (h : Text.readExponent? s = some (exponent, rest)) : rest.length < s.length := by
  unfold Text.readExponent? at h
  split at h
  · rename_i c s
    split at h
    · split at h
      rename_i negative s' hs
      have hle := Text.length_spanDigits_le s'
      have : s'.length ≤ s.length := by
        split at hs <;> cases hs <;> simp
      grind
    · cases h
  · cases h

theorem length_scanExponent_le {s : List Char} {exponent : Option Int} {rest : List Char}
    (h : scanExponent s = some (exponent, rest)) : rest.length ≤ s.length := by
  unfold scanExponent at h
  split at h
  · obtain ⟨⟨e, r⟩, hr, heq⟩ := Option.map_eq_some_iff.1 h
    have := length_readExponent_lt hr
    grind
  · obtain ⟨⟨e, r⟩, hr, heq⟩ := Option.map_eq_some_iff.1 h
    have := length_readExponent_lt hr
    grind
  · grind

theorem length_scanNumber_lt {s : List Char} {l : Literal} {rest : List Char}
    (h : scanNumber s = some (l, rest)) : rest.length < s.length := by
  simp only [scanNumber] at h
  split at h
  · cases h
  rename_i hwhole
  obtain ⟨⟨fraction, s₁⟩, hf, h⟩ := Option.bind_eq_some_iff.1 h
  obtain ⟨⟨exponent, s₂⟩, he, heq⟩ := Option.map_eq_some_iff.1 h
  have h₀ := length_scanSign_le s
  have h₁ := congrArg List.length (Text.spanDigits_append (scanSign s).2)
  have h₂ := length_scanFraction_le hf
  have h₃ := length_scanExponent_le he
  have h₄ : 0 < (Text.spanDigits (scanSign s).2).1.length := by
    simp only [Bool.or_eq_true, List.isEmpty_iff, not_or] at hwhole
    exact List.length_pos_iff.2 hwhole.1
  simp only [List.length_append] at h₁
  grind

theorem length_scanToken_lt {s : List Char} {t : Token} {rest : List Char}
    (h : scanToken s = some (t, rest)) : rest.length < s.length := by
  unfold scanToken at h
  split at h
  case h_7 s =>
    obtain ⟨⟨u, r⟩, hr, heq⟩ := Option.map_eq_some_iff.1 h
    have := length_scanString_lt hr
    grind
  case h_8 c s _ _ _ _ _ _ _ =>
    split at h
    · obtain ⟨⟨l, r⟩, hr, heq⟩ := Option.map_eq_some_iff.1 h
      have := length_scanNumber_lt hr
      grind
    · unfold scanWord at h
      split at h <;> grind
  all_goals grind

/-- The tokens of a text; `none` where no token can be read. -/
def tokens : List Char → Option (List Token)
  | [] => some []
  | c :: s =>
    if isSpace c then tokens s
    else match _h : scanToken (c :: s) with
      | some (t, rest) => (tokens rest).map (t :: ·)
      | none => none
termination_by s => s.length
decreasing_by
  · simp
  · exact length_scanToken_lt _h

/-! ### Values -/

/-- A container that is being read: an array with its items so far, last first, or an object with its
members so far, last first, and the key of the next. -/
inductive Opened
  | array (items : List Raw)
  | object (members : List (List TextUnit × Raw)) (key : List TextUnit)

mutual

/-- Reads tokens where a value is due, inside the opened containers. -/
def readValue : List Token → List Opened → Option Raw
  | .null :: ts, opened => closeValue ts .null opened
  | .boolean b :: ts, opened => closeValue ts (.boolean b) opened
  | .number l :: ts, opened => closeValue ts (.number l) opened
  | .string s :: ts, opened => closeValue ts (.string s) opened
  | .openArray :: .closeArray :: ts, opened => closeValue ts (.array []) opened
  | .openArray :: ts, opened => readValue ts (.array [] :: opened)
  | .openObject :: .closeObject :: ts, opened => closeValue ts (.object []) opened
  | .openObject :: .string key :: .colon :: ts, opened => readValue ts (.object [] key :: opened)
  | _, _ => none

/-- Reads tokens after the value `v`, which belongs to the innermost opened container. -/
def closeValue : List Token → Raw → List Opened → Option Raw
  | [], v, [] => some v
  | .comma :: ts, v, .array items :: opened => readValue ts (.array (v :: items) :: opened)
  | .closeArray :: ts, v, .array items :: opened => closeValue ts (.array (v :: items).reverse) opened
  | .comma :: .string next :: .colon :: ts, v, .object members key :: opened =>
    readValue ts (.object ((key, v) :: members) next :: opened)
  | .closeObject :: ts, v, .object members key :: opened =>
    closeValue ts (.object ((key, v) :: members).reverse) opened
  | _, _, _ => none

end

/-- The value that a whole text holds. -/
def Raw.parse? (s : List Char) : Option Raw :=
  (tokens s).bind fun ts => readValue ts []

/-! ### What a string denotes -/

/-- The text of a string. Surrogates must come in pairs. -/
def textOf? : List TextUnit → Option (List Char)
  | [] => some []
  | .char c :: s => (textOf? s).map (c :: ·)
  | .code high :: .code low :: s =>
    if 0xd800 ≤ high ∧ high < 0xdc00 then
      if 0xdc00 ≤ low ∧ low < 0xe000 then
        (textOf? s).map (Char.ofNat (0x10000 + (high - 0xd800) * 0x400 + (low - 0xdc00)) :: ·)
      else none
    else if 0xdc00 ≤ high ∧ high < 0xe000 then none
    else (textOf? (.code low :: s)).map (Char.ofNat high :: ·)
  | .code n :: s =>
    if 0xd800 ≤ n ∧ n < 0xe000 then none else (textOf? s).map (Char.ofNat n :: ·)

end SignalBridge.Json
