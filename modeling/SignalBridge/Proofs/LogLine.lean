import SignalBridge.Bus.FrameLog
import SignalBridge.Proofs.Payload

/-! Lines of the frame log, read back. The fields of a line end at the spaces, at the last `#` and at the line end: the
    interface may hold anything but a space, and digits hold none of these. The width of the identifier tells the
    format, since an identifier fits the digits of its format. So a line determines what was logged. -/

namespace SignalBridge

namespace Text
variable {s : List Char} {c : Char} {n width : Nat}

/-! ### Padded numbers -/

theorem length_padZeros (h : s.length ≤ width) : (padZeros width s).length = width := by
  simp only [padZeros, List.length_append, List.length_replicate]
  omega

theorem mem_padZeros (h : c ∈ padZeros width s) : c = '0' ∨ c ∈ s := by
  rcases List.mem_append.mp h with h | h
  · exact .inl (List.eq_of_mem_replicate h)
  · exact .inr h

theorem wholeOf_eq (digits : List Char) : wholeOf digits = Nat.ofDigitChars 10 digits 0 :=
  Nat.ofDigitChars_eq_foldl.symm

theorem wholeOf_toDigits (n : Nat) : wholeOf (Nat.toDigits 10 n) = n := by
  rw [wholeOf_eq, Nat.ofDigitChars_ten_toDigits]

theorem wholeOf_padZeros : wholeOf (padZeros width s) = wholeOf s := by
  rw [wholeOf_eq, wholeOf_eq, padZeros, Nat.ofDigitChars_append, Nat.ofDigitChars_replicate_zero, Nat.mul_zero]

theorem isDigit_of_mem_toDigits (h : c ∈ Nat.toDigits 10 n) : c.isDigit = true :=
  Nat.isDigit_of_mem_toDigits (by decide) (by decide) h

/-- The whole number of digits after an optional minus. -/
def readInt : List Char → Int
  | '-' :: digits => -(wholeOf digits : Int)
  | digits => wholeOf digits

theorem readInt_writeInt (i : Int) : readInt (writeInt i) = i := by
  unfold writeInt
  split
  case isTrue hneg =>
    rw [readInt, wholeOf_toDigits]
    omega
  case isFalse hpos =>
    have hminus : ∀ digits, Nat.toDigits 10 i.natAbs ≠ '-' :: digits := by
      intro digits heq
      have hdigit : '-' ∈ Nat.toDigits 10 i.natAbs := heq ▸ List.mem_cons_self
      exact absurd (isDigit_of_mem_toDigits hdigit) (by decide)
    rw [readInt, wholeOf_toDigits]
    · omega
    · exact hminus

theorem not_mem_writeInt {i : Int} (hminus : c ≠ '-') (hdigit : c.isDigit = false) : c ∉ writeInt i := by
  have hdigits : c ∉ Nat.toDigits 10 i.natAbs := fun h => absurd (isDigit_of_mem_toDigits h) (by simp [hdigit])
  unfold writeInt
  split
  · simp [hminus, hdigits]
  · exact hdigits

theorem isDigit_of_mem_padZeros (h : c ∈ padZeros width (Nat.toDigits 10 n)) : c.isDigit = true := by
  rcases mem_padZeros h with rfl | h
  · decide
  · exact isDigit_of_mem_toDigits h

/-! ### Hexadecimal digits -/

def upperHexDigit (d : Nat) : Char :=
  (Nat.digitChar d).toUpper

theorem upperHexDigit_spec : ∀ d < 16, isHexDigit (upperHexDigit d) = true ∧ hexValue (upperHexDigit d) = d := by
  decide

theorem upperHex_eq (n : Nat) :
    upperHex n = if n < 16 then [upperHexDigit n] else upperHex (n / 16) ++ [upperHexDigit (n % 16)] := by
  rw [upperHex, Nat.toDigits_eq_if (by decide)]
  split
  · rfl
  · rw [List.map_append]
    rfl

theorem isHexDigit_of_mem_upperHex (h : c ∈ upperHex n) : isHexDigit c = true := by
  induction n using Nat.strongRecOn with
  | ind n ih =>
    rw [upperHex_eq] at h
    split at h
    next hsmall =>
      rw [List.mem_singleton.mp h]
      exact (upperHexDigit_spec n hsmall).1
    next hlarge =>
      rcases List.mem_append.mp h with h | h
      · exact ih (n / 16) (by omega) h
      · rw [List.mem_singleton.mp h]
        exact (upperHexDigit_spec _ (Nat.mod_lt n (by decide))).1

theorem hexOf_upperHex (n : Nat) : hexOf (upperHex n) = n := by
  induction n using Nat.strongRecOn with
  | ind n ih =>
    rw [upperHex_eq]
    split
    next hsmall => simp [hexOf, (upperHexDigit_spec n hsmall).2]
    next hlarge =>
      have hfold : hexOf (upperHex (n / 16) ++ [upperHexDigit (n % 16)]) =
          16 * hexOf (upperHex (n / 16)) + hexValue (upperHexDigit (n % 16)) := by
        simp [hexOf]
      rw [hfold, ih (n / 16) (by omega), (upperHexDigit_spec _ (Nat.mod_lt n (by decide))).2]
      omega

theorem hexOf_padZeros : hexOf (padZeros width s) = hexOf s := by
  unfold padZeros
  induction width - s.length with
  | zero => rfl
  | succ k ih => rw [List.replicate_succ]; exact ih

theorem length_upperHex_le {k : Nat} (hk : 0 < k) : (upperHex n).length ≤ k ↔ n < Nat.pow 16 k := by
  rw [upperHex, List.length_map]
  exact Nat.length_toDigits_le_iff (by decide) hk

theorem isHexDigit_of_mem_padZeros (h : c ∈ padZeros width (upperHex n)) : isHexDigit c = true := by
  rcases mem_padZeros h with rfl | h
  · decide
  · exact isHexDigit_of_mem_upperHex h

/-! ### Bytes -/

theorem upperHexByte_eq (b : UInt8) :
    upperHexByte b = [upperHexDigit (b.toNat / 16), upperHexDigit (b.toNat % 16)] := by
  have hb : b.toNat < 256 := b.toNat_lt
  rw [upperHexByte, upperHex_eq]
  split
  next hsmall =>
    rw [Nat.div_eq_of_lt hsmall, Nat.mod_eq_of_lt hsmall]
    rfl
  next hlarge =>
    rw [upperHex_eq, if_pos (by omega)]
    rfl

theorem length_flatMap_upperHexByte (data : List UInt8) : (data.flatMap upperHexByte).length = 2 * data.length := by
  induction data with
  | nil => rfl
  | cons b data ih =>
    rw [List.flatMap_cons, List.length_append, ih, upperHexByte_eq]
    simp only [List.length_cons, List.length_nil]
    omega

theorem isHexDigit_of_mem_flatMap {data : List UInt8} (h : c ∈ data.flatMap upperHexByte) : isHexDigit c = true := by
  obtain ⟨b, -, hb⟩ := List.mem_flatMap.mp h
  exact isHexDigit_of_mem_padZeros hb

theorem readHexBytes?_flatMap (data : List UInt8) : readHexBytes? (data.flatMap upperHexByte) = some data := by
  induction data with
  | nil => rfl
  | cons b data ih =>
    have hb : b.toNat < 256 := b.toNat_lt
    obtain ⟨hhigh, hhighvalue⟩ := upperHexDigit_spec (b.toNat / 16) (by omega)
    obtain ⟨hlow, hlowvalue⟩ := upperHexDigit_spec (b.toNat % 16) (by omega)
    have hbyte : 16 * (b.toNat / 16) + b.toNat % 16 = b.toNat := by omega
    rw [List.flatMap_cons, upperHexByte_eq]
    simp only [List.cons_append, List.nil_append, readHexBytes?, hhigh, hlow, Bool.and_self, if_true, ih, hhighvalue,
      hlowvalue, hbyte, Option.map_some, UInt8.ofNat_toNat]

/-! ### Parts of a text -/

/-- What stands before and after the last `c`. -/
def cutLast (c : Char) (s : List Char) : List Char × List Char :=
  let parts := s.splitOn c
  ([c].intercalate parts.dropLast, parts.getLast?.getD [])

theorem cutLast_append {front back : List Char} (h : c ∉ back) : cutLast c (front ++ c :: back) = (front, back) := by
  have hparts : (front ++ c :: back).splitOn c = front.splitOn c ++ [back] := by
    rw [List.splitOn_append_cons_self, List.splitOn_eq_singleton h]
  rw [cutLast, hparts, List.dropLast_concat, List.getLast?_concat, List.intercalate_splitOn]
  rfl

/-- A text without the last character, which must be `c`. -/
def beforeLast? (c : Char) (s : List Char) : Option (List Char) :=
  if s.getLast? = some c then some s.dropLast else none

theorem beforeLast?_concat : beforeLast? c (s ++ [c]) = some s := by
  simp [beforeLast?]

end Text

/-! ### Lines -/

/-- What a line of the log tells: the time to the microsecond, the interface and the frame. -/
structure LogRecord where
  seconds : Int
  microseconds : Nat
  interface : String
  frame : Frame
deriving DecidableEq

namespace LogRecord
open Text

/-- Reads `(seconds.fraction)`. -/
def readStamp? : List Char → Option (Int × Nat)
  | '(' :: s =>
    match s.splitOn '.' with
    | [seconds, fraction] => (beforeLast? ')' fraction).map fun digits => (readInt seconds, wholeOf digits)
    | _ => none
  | _ => none

/-- The format by the number of digits of an identifier: whether it is the extended one. -/
def extendedOf? : Nat → Option Bool
  | 3 => some false
  | 8 => some true
  | _ => none

/-- Reads a line: the payload stands behind the last `#`, the other fields between the spaces before it. -/
def ofLine? (line : String) : Option LogRecord := do
  let (front, back) := cutLast '#' line.toList
  let data ← beforeLast? '\n' back >>= readHexBytes?
  match front.splitOn ' ' with
  | [stamp, interface, digits] =>
    let (seconds, microseconds) ← readStamp? stamp
    let extended ← extendedOf? digits.length
    return { seconds, microseconds, interface := .ofList interface, frame := { id := hexOf digits, extended, data } }
  | _ => none

end LogRecord

namespace Frame
open Text LogRecord

/-- What is logged: the interface has no space, the identifier fits the format, and the second is not over. -/
structure Loggable (f : Frame) (interface : String) (time : Moment) : Prop where
  interface : ' ' ∉ interface.toList
  id : f.id < bit (if f.extended then 29 else 11)
  nanoseconds : time.nanoseconds < Nat.pow 10 9

variable {f : Frame} {interface : String} {time : Moment}

def fractionDigits (time : Moment) : List Char :=
  padZeros 6 (Nat.toDigits 10 (time.nanoseconds / 1000))

def payloadDigits (f : Frame) : List Char :=
  f.data.flatMap upperHexByte

theorem logLine_eq : (f.logLine interface time).toList =
    '(' :: (writeInt time.seconds ++ '.' :: (fractionDigits time ++ [')'])) ++
      ' ' :: (interface.toList ++ ' ' :: f.identifierDigits) ++ '#' :: (f.payloadDigits ++ ['\n']) := by
  simp [logLine, logEntry, fractionDigits, payloadDigits]

theorem readStamp?_stamp : readStamp? ('(' :: (writeInt time.seconds ++ '.' :: (fractionDigits time ++ [')']))) =
    some (time.seconds, time.nanoseconds / 1000) := by
  have hseconds : '.' ∉ writeInt time.seconds := not_mem_writeInt (by decide) (by decide)
  have hfraction : '.' ∉ fractionDigits time ++ [')'] := by
    intro h
    rcases List.mem_append.mp h with h | h
    · exact absurd (isDigit_of_mem_padZeros h) (by decide)
    · exact absurd h (by decide)
  have hsplit : (writeInt time.seconds ++ '.' :: (fractionDigits time ++ [')'])).splitOn '.' =
      [writeInt time.seconds, fractionDigits time ++ [')']] := by
    rw [List.splitOn_append_cons_self_of_not_mem hseconds, List.splitOn_eq_singleton hfraction]
  rw [readStamp?, hsplit]
  dsimp only
  rw [beforeLast?_concat, Option.map_some, readInt_writeInt, fractionDigits, wholeOf_padZeros, wholeOf_toDigits]

theorem isHexDigit_of_mem_identifierDigits {c : Char} (h : c ∈ f.identifierDigits) : isHexDigit c = true :=
  isHexDigit_of_mem_padZeros h

theorem hexOf_identifierDigits : hexOf f.identifierDigits = f.id := by
  rw [identifierDigits, hexOf_padZeros, hexOf_upperHex]

theorem Loggable.length_identifierDigits (h : f.Loggable interface time) :
    f.identifierDigits.length = if f.extended then 8 else 3 := by
  refine length_padZeros ((length_upperHex_le (by split <;> decide)).mpr ?_)
  have hid := h.id
  cases hextended : f.extended with
  | true =>
    rw [hextended] at hid
    exact Nat.lt_of_lt_of_le hid (by decide)
  | false =>
    rw [hextended] at hid
    exact Nat.lt_of_lt_of_le hid (by decide)

theorem Loggable.length_fractionDigits (h : f.Loggable interface time) : (fractionDigits time).length = 6 := by
  have hnanoseconds : time.nanoseconds < 1000000000 := h.nanoseconds
  refine length_padZeros ((Nat.length_toDigits_le_iff (by decide) (by decide)).mpr ?_)
  omega

/-- The fields before the payload, between spaces. -/
theorem Loggable.splitOn_front (h : f.Loggable interface time) :
    ('(' :: (writeInt time.seconds ++ '.' :: (fractionDigits time ++ [')'])) ++
      ' ' :: (interface.toList ++ ' ' :: f.identifierDigits)).splitOn ' ' =
    ['(' :: (writeInt time.seconds ++ '.' :: (fractionDigits time ++ [')'])), interface.toList, f.identifierDigits] := by
  have hstamp : ' ' ∉ '(' :: (writeInt time.seconds ++ '.' :: (fractionDigits time ++ [')'])) := by
    have hseconds : ' ' ∉ writeInt time.seconds := not_mem_writeInt (by decide) (by decide)
    have hfraction : ' ' ∉ fractionDigits time := fun h => absurd (isDigit_of_mem_padZeros h) (by decide)
    simp [hseconds, hfraction]
  have hdigits : ' ' ∉ f.identifierDigits := fun h => absurd (isHexDigit_of_mem_identifierDigits h) (by decide)
  rw [List.splitOn_append_cons_self_of_not_mem hstamp, List.splitOn_append_cons_self_of_not_mem h.interface,
    List.splitOn_eq_singleton hdigits]

theorem Loggable.ofLine?_eq (h : f.Loggable interface time) : ofLine? (f.logLine interface time) =
    some { seconds := time.seconds, microseconds := time.nanoseconds / 1000, interface, frame := f } := by
  have hpayload : '#' ∉ f.payloadDigits ++ ['\n'] := by
    intro h
    rcases List.mem_append.mp h with h | h
    · exact absurd (isHexDigit_of_mem_flatMap h) (by decide)
    · exact absurd h (by decide)
  have hextended : extendedOf? f.identifierDigits.length = some f.extended := by
    rw [h.length_identifierDigits]
    cases f.extended <;> rfl
  have hdata : readHexBytes? f.payloadDigits = some f.data := readHexBytes?_flatMap f.data
  rw [ofLine?, logLine_eq, cutLast_append hpayload]
  simp only [beforeLast?_concat, Option.bind_some, hdata, h.splitOn_front, readStamp?_stamp, hextended,
    hexOf_identifierDigits, String.ofList_toList, Option.bind_eq_bind]
  rfl

/-- A line of the log has digits of fixed width for the fraction and the identifier and two for each byte, it is read
    back to what was logged, and so no two records have one line. -/
theorem ofLine?_logLine (h : f.Loggable interface time) :
    (∃ fraction digits payload : List Char,
      f.logLine interface time = String.ofList ('(' :: writeInt time.seconds ++ '.' :: fraction ++ [')', ' '] ++
        interface.toList ++ ' ' :: digits ++ '#' :: payload ++ ['\n']) ∧
      fraction.length = 6 ∧ fraction.all Char.isDigit = true ∧
      digits.length = (if f.extended then 8 else 3) ∧ digits.all isHexDigit = true ∧
      payload.length = 2 * f.dataLength ∧ payload.all isHexDigit = true) ∧
    ofLine? (f.logLine interface time) =
      some { seconds := time.seconds, microseconds := time.nanoseconds / 1000, interface, frame := f } ∧
    ∀ f' interface' time', Loggable f' interface' time' → f'.logLine interface' time' = f.logLine interface time →
      time'.seconds = time.seconds ∧ time'.nanoseconds / 1000 = time.nanoseconds / 1000 ∧
        interface' = interface ∧ f' = f := by
  refine ⟨⟨fractionDigits time, f.identifierDigits, f.payloadDigits, ?_, h.length_fractionDigits, ?_,
    h.length_identifierDigits, ?_, length_flatMap_upperHexByte f.data, ?_⟩, h.ofLine?_eq, ?_⟩
  · simp [logLine, logEntry, fractionDigits, payloadDigits]
  · exact List.all_eq_true.mpr fun c => isDigit_of_mem_padZeros
  · exact List.all_eq_true.mpr fun c => isHexDigit_of_mem_identifierDigits
  · exact List.all_eq_true.mpr fun c => isHexDigit_of_mem_flatMap
  · intro f' interface' time' h' heq
    -- One line is read in one way only.
    have hread := h'.ofLine?_eq
    rw [heq, h.ofLine?_eq] at hread
    injection hread with hread
    injection hread with hseconds hmicroseconds hinterface hframe
    exact ⟨hseconds.symm, hmicroseconds.symm, hinterface.symm, hframe.symm⟩

/-- An interface with a `#`, an empty payload, and a time before the epoch. -/
theorem ofLine?_logLine_hash :
    let f : Frame := { id := 0x18FF50E5, extended := true, data := [] }
    f.logLine "v(can)#0" ⟨-1, 999999999⟩ = "(-1.999999) v(can)#0 18FF50E5#\n" ∧
      ofLine? "(-1.999999) v(can)#0 18FF50E5#\n" =
        some { seconds := -1, microseconds := 999999, interface := "v(can)#0", frame := f } := by
  intro f
  have hline : f.logLine "v(can)#0" ⟨-1, 999999999⟩ = "(-1.999999) v(can)#0 18FF50E5#\n" := by decide +kernel
  refine ⟨hline, ?_⟩
  rw [← hline]
  exact (ofLine?_logLine ⟨by decide, by decide, by decide⟩).2.1

end Frame
end SignalBridge
