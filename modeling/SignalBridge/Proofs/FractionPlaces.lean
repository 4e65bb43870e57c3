import SignalBridge.Proofs.Insertion
import SignalBridge.Proofs.SettledText

/-! Where fractions are put. Giving fractions keeps a text as it is and only puts `.0` into it: once behind each run of
    digits that stands outside of quotes and that neither what precedes it nor what follows it continues. Quoted parts
    stay as they are. -/

namespace SignalBridge.Expression
variable {front part digits rest s : List Char} {c : Char} {previous : Option Char}

/-! ### Quotes from left to right -/

/-- Where a character stands: outside of quotes, inside of them, or inside of them behind a backslash. -/
inductive Quoting
  | outside
  | inside
  | escaped
deriving DecidableEq

/-- Quotes open and close in turn, but for those behind a backslash. -/
def Quoting.next : Quoting → Char → Quoting
  | .outside, c => if c = '"' then .inside else .outside
  | .inside, c => if c = '"' then .outside else if c = '\\' then .escaped else .inside
  | .escaped, _ => .inside

/-- Where the character stands that follows a text. -/
def Quoting.after (front : List Char) : Quoting :=
  front.foldl Quoting.next .outside

/-- The part of a text from an opening quote to the closing one, or to the end of the text if there is none. -/
structure QuotedPart (front part rest : List Char) : Prop where
  outside : Quoting.after front = .outside
  opens : part.head? = some '"'
  inside : ∀ n < part.length, 0 < n → Quoting.after (front ++ part.take n) ≠ .outside
  ends : Quoting.after (front ++ part) = .outside ∨ rest = []

/-! ### Whole numbers of a text -/

/-- Digits with no digit before them and none behind them. -/
structure DigitRun (front digits rest : List Char) : Prop where
  nonempty : digits ≠ []
  all : digits.all Char.isDigit = true
  first : front.getLast?.any Char.isDigit = false
  last : rest.head?.any Char.isDigit = false

/-- A run of digits outside of quotes that nothing continues to either side. -/
structure WholeNumber (front digits rest : List Char) : Prop extends DigitRun front digits rest where
  outside : Quoting.after front = .outside
  before : front.getLast?.any continuesBefore = false
  behind : rest.head?.any continuesAfter = false

/-- A whole number of the text ends between `front` and `rest`. -/
def EndsNumber (front rest : List Char) : Prop :=
  ∃ before digits, front = before ++ digits ∧ WholeNumber before digits rest

instance : Decidable (WholeNumber front digits rest) :=
  decidable_of_iff ((digits ≠ [] ∧ digits.all Char.isDigit = true ∧ front.getLast?.any Char.isDigit = false ∧
      rest.head?.any Char.isDigit = false) ∧ Quoting.after front = .outside ∧
      front.getLast?.any continuesBefore = false ∧ rest.head?.any continuesAfter = false)
    ⟨fun ⟨⟨nonempty, all, first, last⟩, outside, before, behind⟩ =>
        ⟨⟨nonempty, all, first, last⟩, outside, before, behind⟩,
      fun ⟨⟨nonempty, all, first, last⟩, outside, before, behind⟩ =>
        ⟨⟨nonempty, all, first, last⟩, outside, before, behind⟩⟩

instance : Decidable (EndsNumber front rest) :=
  decidable_of_iff (∃ n < front.length, WholeNumber (front.take n) (front.drop n) rest) <| by
    constructor
    · rintro ⟨n, -, h⟩
      exact ⟨front.take n, front.drop n, (List.take_append_drop n front).symm, h⟩
    · rintro ⟨before, digits, rfl, h⟩
      refine ⟨before.length, ?_, ?_⟩
      · have := List.length_pos_iff.mpr h.nonempty
        simpa using this
      · rwa [List.take_left, List.drop_left]

/-- A part of a text between `front` and `rest`, with `.0` behind each whole number of the text that ends in it. -/
def fractioned (front : List Char) : List Char → List Char → List Char
  | [], _ => []
  | c :: part, rest =>
    c :: (if EndsNumber (front ++ [c]) (part ++ rest) then ['.', '0'] else []) ++ fractioned (front ++ [c]) part rest

theorem fractioned_append (front part part' rest : List Char) :
    fractioned front (part ++ part') rest =
      fractioned front part (part' ++ rest) ++ fractioned (front ++ part) part' rest := by
  induction part generalizing front with
  | nil => rw [List.nil_append, fractioned, List.append_nil, List.nil_append]
  | cons c part ih => simp [fractioned, ih]

/-- A part in which no number ends is kept. -/
theorem fractioned_eq_self
    (h : ∀ n < part.length, ¬EndsNumber (front ++ part.take (n + 1)) (part.drop (n + 1) ++ rest)) :
    fractioned front part rest = part := by
  induction part generalizing front with
  | nil => rfl
  | cons c part ih =>
    have hhead : ¬EndsNumber (front ++ [c]) (part ++ rest) := h 0 (by simp)
    rw [fractioned, if_neg hhead, ih fun n hn => by simpa using h (n + 1) (by simpa using hn)]
    rfl

/-! ### Ends of numbers -/

theorem Quoting.after_concat (front : List Char) (c : Char) :
    Quoting.after (front ++ [c]) = (Quoting.after front).next c := by
  rw [Quoting.after, List.foldl_append]
  rfl

theorem Quoting.next_eq_outside (hc : c.isDigit = true) (q : Quoting) : q.next c = .outside ↔ q = .outside := by
  have hquote := ne_quote_of_isDigit hc
  cases q with
  | outside => simp [Quoting.next, hquote]
  | inside => by_cases hescape : c = '\\' <;> simp [Quoting.next, hquote, hescape]
  | escaped => simp [Quoting.next]

/-- Digits neither open nor close quotes. -/
theorem Quoting.after_digits (hdigits : digits.all Char.isDigit = true) :
    Quoting.after (front ++ digits) = .outside ↔ Quoting.after front = .outside := by
  induction digits generalizing front with
  | nil => rw [List.append_nil]
  | cons c digits ih =>
    obtain ⟨hc, hdigits⟩ := Bool.and_eq_true_iff.mp hdigits
    rw [List.append_cons, ih hdigits, Quoting.after_concat, Quoting.next_eq_outside hc]

/-- A text ends in digits at which a number begins. -/
def Begun (front : List Char) : Prop :=
  ∃ before digits, front = before ++ digits ∧ digits ≠ [] ∧ digits.all Char.isDigit = true ∧
    before.getLast?.any continuesBefore = false

theorem begun_concat : Begun (front ++ [c]) ↔
    c.isDigit = true ∧ (Begun front ∨ front.getLast?.any continuesBefore = false) := by
  constructor
  · rintro ⟨before, digits, heq, hne, hdigits, hbefore⟩
    obtain ⟨init, last, rfl⟩ := (List.eq_nil_or_concat digits).resolve_left hne
    rw [List.concat_eq_append, ← List.append_assoc] at heq
    obtain ⟨rfl, hlast⟩ := List.append_inj' heq rfl
    obtain rfl := (List.cons.inj hlast).1
    have hsplit : init.all Char.isDigit = true ∧ c.isDigit = true := by simpa using hdigits
    refine ⟨hsplit.2, ?_⟩
    by_cases hinit : init = []
    · rw [hinit, List.append_nil]
      exact .inr hbefore
    · exact .inl ⟨before, init, rfl, hinit, hsplit.1, hbefore⟩
  · rintro ⟨hc, ⟨before, digits, rfl, -, hdigits, hbefore⟩ | hbefore⟩
    · exact ⟨before, digits ++ [c], List.append_assoc .., by simp, by simp_all, hbefore⟩
    · exact ⟨front, [c], rfl, by simp, by simp [hc], hbefore⟩

theorem any_isDigit_eq_false {p : Char → Bool} (hp : ∀ c, c.isDigit = true → p c = true) {o : Option Char}
    (h : o.any p = false) : o.any Char.isDigit = false := by
  cases o with
  | none => rfl
  | some c => exact Bool.eq_false_iff.mpr fun hc => absurd (hp c hc) (Bool.eq_false_iff.mp h)

theorem endsNumber_iff : EndsNumber front rest ↔
    Begun front ∧ Quoting.after front = .outside ∧ rest.head?.any continuesAfter = false := by
  constructor
  · rintro ⟨before, digits, rfl, h⟩
    exact ⟨⟨before, digits, rfl, h.nonempty, h.all, h.before⟩, (Quoting.after_digits h.all).mpr h.outside, h.behind⟩
  · rintro ⟨⟨before, digits, rfl, hne, hdigits, hbefore⟩, houtside, hbehind⟩
    have hfirst := any_isDigit_eq_false (fun _ => continuesBefore_of_isDigit) hbefore
    have hlast := any_isDigit_eq_false (fun _ => continuesAfter_of_isDigit) hbehind
    have houtside' : Quoting.after before = .outside := (Quoting.after_digits hdigits).mp houtside
    exact ⟨before, digits, rfl, ⟨hne, hdigits, hfirst, hlast⟩, houtside', hbefore, hbehind⟩

/-! ### Quoted parts -/

theorem QuotedPart.fractioned_eq (h : QuotedPart front part rest) : fractioned front part rest = part := by
  refine fractioned_eq_self fun n hn hends => ?_
  obtain ⟨hbegun, houtside, -⟩ := endsNumber_iff.mp hends
  rw [List.take_succ_eq_append_getElem hn, ← List.append_assoc] at hbegun houtside
  have hdigit := (begun_concat.mp hbegun).1
  -- A digit leaves the quotes as they are, so only the opening quote could end a number.
  rw [Quoting.after_concat, Quoting.next_eq_outside hdigit] at houtside
  by_cases hfirst : 0 < n
  · exact h.inside n hn hfirst houtside
  · obtain rfl : n = 0 := by omega
    have hquote : part[0] = '"' := by
      have := h.opens
      rw [List.head?_eq_getElem?, List.getElem?_eq_getElem hn] at this
      exact Option.some.inj this
    exact absurd rfl (hquote ▸ ne_quote_of_isDigit hdigit)

theorem Quoting.eq_quote_of_next {q : Quoting} (hq : q ≠ .outside) (h : q.next c = .outside) : c = '"' := by
  cases q with
  | outside => exact absurd rfl hq
  | inside =>
    by_contra hquote
    by_cases hescape : c = '\\' <;> simp [Quoting.next, hquote, hescape] at h
  | escaped => cases h

/-- A quoted part that is closed ends in a quote. -/
theorem QuotedPart.exists_of_closed (h : QuotedPart front part rest)
    (hclosed : Quoting.after (front ++ part) = .outside) : ∃ init, part = init ++ ['"'] := by
  obtain ⟨tail, rfl⟩ := List.head?_eq_some_iff.mp h.opens
  obtain ⟨init, last, heq⟩ := (List.eq_nil_or_concat ('"' :: tail)).resolve_left (List.cons_ne_nil _ _)
  rw [List.concat_eq_append] at heq
  cases init with
  | nil =>
    obtain ⟨rfl, -⟩ := List.cons.inj heq
    exact ⟨[], heq⟩
  | cons c init =>
    have hbefore := h.inside (c :: init).length (by simp [heq]) (by simp)
    rw [heq, List.take_left] at hbefore
    rw [heq, ← List.append_assoc, Quoting.after_concat] at hclosed
    exact ⟨c :: init, Quoting.eq_quote_of_next hbefore hclosed ▸ heq⟩

/-- What a text has for its quoted part stays inside of quotes up to the closing one. -/
theorem foldl_splitQuoted (s : List Char) :
    (∀ n < (splitQuoted s).1.length, ((splitQuoted s).1.take n).foldl Quoting.next .inside ≠ .outside) ∧
      ((splitQuoted s).1.foldl Quoting.next .inside = .outside ∨ (splitQuoted s).2 = []) := by
  have hinside : Quoting.inside ≠ .outside := by decide
  have hescaped : Quoting.escaped ≠ .outside := by decide
  fun_induction splitQuoted s with
  | case1 => exact ⟨by simp, .inr rfl⟩
  | case2 s => exact ⟨by simp, .inl rfl⟩
  | case3 c s quoted rest heq ih =>
    rw [heq] at ih
    refine ⟨fun n hn => ?_, ih.2⟩
    rcases n with _ | _ | n
    · exact hinside
    · exact hescaped
    · exact ih.1 n (by simpa using hn)
  | case4 c s hquote hescape quoted rest heq ih =>
    rw [heq] at ih
    by_cases hlast : c = '\\'
    · -- A backslash before the end of the text.
      cases s with
      | nil =>
        obtain ⟨rfl, rfl⟩ := Prod.mk.inj heq
        exact ⟨by simp, .inr rfl⟩
      | cons d s => exact absurd rfl (hescape d s hlast)
    · have hnext : Quoting.next .inside c = .inside := by rw [Quoting.next, if_neg hquote, if_neg hlast]
      refine ⟨fun n hn => ?_, ?_⟩
      · cases n with
        | zero => exact hinside
        | succ n =>
          rw [List.take_succ_cons, List.foldl_cons, hnext]
          exact ih.1 n (by simpa using hn)
      · rw [List.foldl_cons, hnext]
        exact ih.2

theorem quotedPart_splitQuoted (houtside : Quoting.after front = .outside) :
    QuotedPart front ('"' :: (splitQuoted s).1) (splitQuoted s).2 := by
  obtain ⟨hinside, hends⟩ := foldl_splitQuoted s
  have hafter (t : List Char) : Quoting.after (front ++ '"' :: t) = t.foldl Quoting.next .inside := by
    rw [Quoting.after, List.foldl_append, ← Quoting.after, houtside]
    rfl
  refine ⟨houtside, rfl, fun n hn hpos => ?_, hafter _ ▸ hends⟩
  obtain ⟨n, rfl⟩ := Nat.exists_eq_add_of_lt hpos
  rw [Nat.zero_add, List.take_succ_cons, hafter]
  exact hinside n (by simpa using hn)

/-! ### Runs of digits -/

theorem fractioned_digits (hne : digits ≠ []) (hdigits : digits.all Char.isDigit = true) :
    fractioned front digits rest = digits ++ if EndsNumber (front ++ digits) rest then ['.', '0'] else [] := by
  induction digits generalizing front with
  | nil => exact absurd rfl hne
  | cons c digits ih =>
    obtain ⟨-, hdigits⟩ := Bool.and_eq_true_iff.mp hdigits
    cases digits with
    | nil => simp [fractioned]
    | cons d digits =>
      have hd : continuesAfter d = true := continuesAfter_of_isDigit (Bool.and_eq_true_iff.mp hdigits).1
      have hnot : ¬EndsNumber (front ++ [c]) (d :: digits ++ rest) := fun hends =>
        absurd (endsNumber_iff.mp hends).2.2 (by simp [hd])
      rw [fractioned, if_neg hnot, ih (List.cons_ne_nil d digits) hdigits, List.append_assoc]
      rfl

/-- Digits at which a number begins are kept, and get a fraction unless the rest continues them. -/
theorem fractioned_number (hne : digits ≠ []) (hdigits : digits.all Char.isDigit = true)
    (houtside : Quoting.after front = .outside) (hbefore : front.getLast?.any continuesBefore = false) :
    fractioned front digits rest = digits ++ if rest.head?.any continuesAfter then [] else ['.', '0'] := by
  have hbegun : Begun (front ++ digits) := ⟨front, digits, rfl, hne, hdigits, hbefore⟩
  have hends : EndsNumber (front ++ digits) rest ↔ rest.head?.any continuesAfter = false := by
    rw [endsNumber_iff, and_iff_right hbegun, and_iff_right ((Quoting.after_digits hdigits).mpr houtside)]
  rw [fractioned_digits hne hdigits]
  by_cases hrest : rest.head?.any continuesAfter = true
  · rw [if_pos hrest, if_neg fun h => absurd (hends.mp h) (by simp [hrest])]
  · rw [if_neg hrest, if_pos (hends.mpr (Bool.eq_false_iff.mpr hrest))]

theorem WholeNumber.fractioned_eq (h : WholeNumber front digits rest) :
    fractioned front digits rest = digits ++ ['.', '0'] := by
  rw [fractioned_number h.nonempty h.all h.outside h.before, h.behind]
  rfl

/-! ### Texts -/

/-- Of what stands before a text only the last character bears on it, where that is outside of quotes and no number has
    begun that the text continues. -/
theorem addFractions_eq_fractioned (hprevious : previous.any continuesBefore = front.getLast?.any continuesBefore)
    (houtside : Quoting.after front = .outside) (hbegun : s.head?.any Char.isDigit = true → ¬Begun front) :
    addFractions previous s = fractioned front s [] := by
  fun_induction addFractions previous s generalizing front with
  | case1 => rfl
  | case2 previous s ih =>
    have hquoted : QuotedPart front ('"' :: (splitQuoted s).1) (splitQuoted s).2 := quotedPart_splitQuoted houtside
    have hsplit : '"' :: s = '"' :: (splitQuoted s).1 ++ (splitQuoted s).2 := by rw [List.cons_append, splitQuoted_append]
    rw [hsplit, fractioned_append, List.append_nil, hquoted.fractioned_eq]
    rcases hquoted.ends with hclosed | hnil
    · obtain ⟨init, hinit⟩ := hquoted.exists_of_closed hclosed
      have hnot : ¬Begun (front ++ '"' :: (splitQuoted s).1) := by
        rw [hinit, ← List.append_assoc, begun_concat]
        exact fun h => absurd h.1 (by decide)
      rw [ih (by rw [hinit, ← List.append_assoc, List.getLast?_concat]) hclosed fun _ => hnot]
    · rw [hnil, addFractions, fractioned]
  | case3 previous c s hquote hnumber digits after fraction =>
    rename_i ih
    obtain ⟨hdigit, hstarts⟩ := Bool.and_eq_true_iff.mp hnumber
    have hsplit : c :: digits ++ after = c :: s := congrArg (c :: ·) List.takeWhile_append_dropWhile
    have hdigits : (c :: digits).all Char.isDigit = true := by
      rw [List.all_cons, hdigit]
      exact List.all_eq_true.mpr fun d => List.mem_takeWhile_imp
    have hbefore : front.getLast?.any continuesBefore = false := by simpa [hprevious] using hstarts
    have houtside' : Quoting.after (front ++ c :: digits) = .outside := (Quoting.after_digits hdigits).mpr houtside
    obtain ⟨init, last, hlast, hlastdigit⟩ := exists_last_digit hdigit s
    have hcontinues : (some c).any continuesBefore = (front ++ c :: digits).getLast?.any continuesBefore := by
      rw [hlast, ← List.append_assoc, List.getLast?_concat, Option.any_some, Option.any_some,
        continuesBefore_of_isDigit hdigit, continuesBefore_of_isDigit hlastdigit]
    have hfraction : fraction = if after.head?.any continuesAfter then [] else ['.', '0'] := rfl
    -- The digits are taken as far as they go, so what comes next continues no number that has begun.
    have hhead : after.head?.any Char.isDigit = true → ¬Begun (front ++ c :: digits) := fun hhead =>
      absurd hhead (by simp [after, head?_dropWhile_isDigit])
    rw [hfraction, ← hsplit, fractioned_append, List.append_nil,
      fractioned_number (List.cons_ne_nil c digits) hdigits houtside hbefore, ih hcontinues houtside' hhead]
  | case4 previous c s hquote hnumber ih =>
    have hnot : ¬Begun (front ++ [c]) := by
      rw [begun_concat]
      rintro ⟨hc, hfront | hfront⟩
      · exact hbegun (by simpa using hc) hfront
      · exact hnumber (by rw [hc, hprevious, hfront]; rfl)
    have houtside' : Quoting.after (front ++ [c]) = .outside := by
      rw [Quoting.after_concat, houtside, Quoting.next, if_neg hquote]
    rw [fractioned, if_neg fun hends => hnot (endsNumber_iff.mp hends).1, ih (by simp) houtside' fun _ => hnot]
    rfl

/-- However a text is cut in three, giving it its fractions keeps what stands in each part and puts `.0` behind the
    whole numbers of the text that end there. A quoted part stays as it is, and a whole number gets one fraction. -/
theorem withFractions_of_parts (source : String) :
    (withFractions source).toList = fractioned [] source.toList [] ∧
      ∀ {front part rest : List Char}, source.toList = front ++ part ++ rest →
        (withFractions source).toList =
            fractioned [] front (part ++ rest) ++ fractioned front part rest ++ fractioned (front ++ part) rest [] ∧
          (QuotedPart front part rest → fractioned front part rest = part) ∧
          (WholeNumber front part rest → fractioned front part rest = part ++ ['.', '0']) := by
  have hnot : ¬Begun [] := fun ⟨_, _, heq, hne, _⟩ => hne (List.append_eq_nil_iff.mp heq.symm).2
  have hwhole : (withFractions source).toList = fractioned [] source.toList [] := by
    rw [withFractions, String.toList_ofList]
    exact addFractions_eq_fractioned rfl rfl fun _ => hnot
  refine ⟨hwhole, fun hparts => ⟨?_, QuotedPart.fractioned_eq, WholeNumber.fractioned_eq⟩⟩
  rw [hwhole, hparts, fractioned_append, fractioned_append, List.append_nil, List.nil_append]
  rfl

/-- A text with a name that ends in a digit, and with digits around a quote behind a backslash. -/
theorem withFractions_of_parts_escaped :
    (withFractions "x2 / 40 + \"7\\\"8\"5").toList = "x2 / 40.0 + \"7\\\"8\"5.0".toList ∧
      (QuotedPart "x2 / 40 + ".toList "\"7\\\"8\"".toList "5".toList ∧
        fractioned "x2 / 40 + ".toList "\"7\\\"8\"".toList "5".toList = "\"7\\\"8\"".toList) ∧
      WholeNumber "x2 / ".toList "40".toList " + \"7\\\"8\"5".toList ∧
        fractioned "x2 / ".toList "40".toList " + \"7\\\"8\"5".toList = "40.0".toList := by
  obtain ⟨hwhole, hparts⟩ := withFractions_of_parts "x2 / 40 + \"7\\\"8\"5"
  have hquoted : QuotedPart "x2 / 40 + ".toList "\"7\\\"8\"".toList "5".toList :=
    ⟨by decide, by decide, by decide, .inl (by decide)⟩
  have hnumber : WholeNumber "x2 / ".toList "40".toList " + \"7\\\"8\"5".toList := by decide +kernel
  have htext : fractioned [] "x2 / 40 + \"7\\\"8\"5".toList [] = "x2 / 40.0 + \"7\\\"8\"5.0".toList := by decide +kernel
  exact ⟨hwhole.trans htext, ⟨hquoted, (hparts rfl).2.1 hquoted⟩, hnumber, (hparts rfl).2.2 hnumber⟩

end SignalBridge.Expression
