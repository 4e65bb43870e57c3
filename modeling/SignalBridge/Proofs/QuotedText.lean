import Mathlib.Data.List.TakeWhile
import SignalBridge.Expression.Division
import SignalBridge.Expression.Token

/-! Quoted texts, numbers and what follows them. Where all quotes are closed, a text is given its fractions before a
    rest that continues no number as it is by itself. Pieces join before a closing parenthesis as they do by
    themselves. -/

namespace SignalBridge.Expression
variable {s rest : List Char} {previous : Option Char}

/-- A quoted text, after its opening quote, has a closing one. -/
def closes : List Char → Bool
  | [] => false
  | '"' :: _ => true
  | '\\' :: _ :: s => closes s
  | _ :: s => closes s

/-- All quotes are closed. -/
inductive Paired : List Char → Prop
  | nil : Paired []
  | quoted {s : List Char} (hclosed : closes s = true) (hrest : Paired (splitQuoted s).2) : Paired ('"' :: s)
  | cons {c : Char} {s : List Char} (hquote : c ≠ '"') (hrest : Paired s) : Paired (c :: s)

theorem Paired.of_plain (h : '"' ∉ s) : Paired s := by
  induction s with
  | nil => exact .nil
  | cons c s ih =>
    rw [List.mem_cons, not_or] at h
    exact .cons (Ne.symm h.1) (ih h.2)

/-! ### Quoted texts -/

section
variable {c : Char} (hquote : c ≠ '"') (hescape : c ≠ '\\')
include hquote hescape

theorem closes_cons : closes (c :: s) = closes s := by
  rw [closes]
  · exact hquote
  · exact fun _ _ h _ => hescape h

theorem splitQuoted_cons : splitQuoted (c :: s) = (c :: (splitQuoted s).1, (splitQuoted s).2) := by
  rw [splitQuoted]
  · exact hquote
  · exact fun _ _ h _ => hescape h

theorem scanText_cons : scanText (c :: s) = (scanText s).map fun (t, rest) => (c :: t, rest) := by
  rw [scanText]
  · exact hquote
  · exact fun _ _ h _ => hescape h
  · exact fun h _ => hescape h

end

/-- The last case of a scan: an ordinary character. -/
theorem ne_backslash {c : Char} (hescape : ∀ d t, c = '\\' → s = d :: t → False) (hlast : c = '\\' → s = [] → False) :
    c ≠ '\\' := by
  intro heq
  cases s with
  | nil => exact hlast heq rfl
  | cons d t => exact hescape d t heq rfl

/-- The quoted part of a text is one also before another rest. -/
theorem splitQuoted_closed (h : closes s = true) (rest : List Char) :
    closes ((splitQuoted s).1 ++ rest) = true ∧ splitQuoted ((splitQuoted s).1 ++ rest) = ((splitQuoted s).1, rest) := by
  fun_induction closes s with
  | case1 => cases h
  | case2 s => exact ⟨rfl, rfl⟩
  | case3 c s ih =>
    obtain ⟨hcloses, hsplit⟩ := ih h
    simp [splitQuoted, closes, hcloses, hsplit]
  | case4 c s hquote hescape ih =>
    cases s with
    | nil => cases h
    | cons d s =>
      have hescape : c ≠ '\\' := fun heq => hescape d s heq rfl
      obtain ⟨hcloses, hsplit⟩ := ih h
      rw [splitQuoted_cons hquote hescape, List.cons_append, closes_cons hquote hescape,
        splitQuoted_cons hquote hescape, hsplit]
      exact ⟨hcloses, rfl⟩

theorem splitQuoted_append_of_closes (h : closes s = true) (rest : List Char) :
    splitQuoted (s ++ rest) = ((splitQuoted s).1, (splitQuoted s).2 ++ rest) := by
  have hsplit : s ++ rest = (splitQuoted s).1 ++ ((splitQuoted s).2 ++ rest) := by
    rw [← List.append_assoc, splitQuoted_append]
  rw [hsplit, (splitQuoted_closed h _).2]

/-- A quoted text is read in the same way before another rest. -/
theorem scanText_splitQuoted {t r : List Char} (h : scanText s = .ok (t, r)) (rest : List Char) :
    scanText ((splitQuoted s).1 ++ rest) = .ok (t, rest) := by
  fun_induction scanText s generalizing t with
  | case1 | case4 | case5 => cases h
  | case2 s =>
    obtain ⟨rfl, rfl⟩ := Prod.mk.inj (Except.ok.inj h)
    rfl
  | case3 c s hc ih =>
    obtain ⟨⟨t', r'⟩, hs, heq⟩ := map_eq_ok.mp h
    obtain ⟨rfl, rfl⟩ := Prod.mk.inj heq
    simp [splitQuoted, scanText, hc, ih hs, Except.map]
  | case6 c s hquote hescape hlast ih =>
    have hescape := ne_backslash hescape hlast
    obtain ⟨⟨t', r'⟩, hs, heq⟩ := map_eq_ok.mp h
    obtain ⟨rfl, rfl⟩ := Prod.mk.inj heq
    rw [splitQuoted_cons hquote hescape, List.cons_append, scanText_cons hquote hescape, ih hs]
    rfl

theorem closes_of_scanText {t r : List Char} (h : scanText s = .ok (t, r)) :
    closes s = true ∧ (splitQuoted s).2 = r := by
  fun_induction scanText s generalizing t with
  | case1 | case4 | case5 => cases h
  | case2 s =>
    obtain ⟨rfl, rfl⟩ := Prod.mk.inj (Except.ok.inj h)
    exact ⟨rfl, rfl⟩
  | case3 c s hc ih =>
    obtain ⟨⟨t', r'⟩, hs, heq⟩ := map_eq_ok.mp h
    obtain ⟨rfl, rfl⟩ := Prod.mk.inj heq
    simpa [closes, splitQuoted] using ih hs
  | case6 c s hquote hescape hlast ih =>
    have hescape := ne_backslash hescape hlast
    obtain ⟨⟨t', r'⟩, hs, heq⟩ := map_eq_ok.mp h
    obtain ⟨rfl, rfl⟩ := Prod.mk.inj heq
    rw [closes_cons hquote hescape, splitQuoted_cons hquote hescape]
    exact ih hs

theorem scanText_append {t r : List Char} (h : scanText s = .ok (t, r)) (rest : List Char) :
    scanText (s ++ rest) = .ok (t, r ++ rest) := by
  have hsplit : s ++ rest = (splitQuoted s).1 ++ (r ++ rest) := by
    rw [← (closes_of_scanText h).2, ← List.append_assoc, splitQuoted_append]
  rw [hsplit, scanText_splitQuoted h]

/-! ### Numbers with fractions -/

theorem Paired.tail {c : Char} (h : Paired (c :: s)) (hquote : c ≠ '"') : Paired s := by
  cases h with
  | quoted => exact absurd rfl hquote
  | cons _ hrest => exact hrest

theorem ne_quote_of_isDigit {c : Char} (h : c.isDigit = true) : c ≠ '"' := by
  rintro rfl
  exact absurd h (by decide)

theorem Paired.dropWhile_isDigit (h : Paired s) : Paired (s.dropWhile Char.isDigit) := by
  induction s with
  | nil => exact h
  | cons c s ih =>
    by_cases hc : c.isDigit = true
    · rw [List.dropWhile_cons_of_pos hc]
      exact ih (h.tail (ne_quote_of_isDigit hc))
    · rwa [List.dropWhile_cons_of_neg hc]

theorem addFractions_quoted :
    addFractions previous ('"' :: s) = '"' :: (splitQuoted s).1 ++ addFractions (some '"') (splitQuoted s).2 := by
  rw [addFractions]

theorem addFractions_cons {c : Char} (hquote : c ≠ '"') : addFractions previous (c :: s) =
    if c.isDigit && !previous.any continuesBefore then
      c :: s.takeWhile Char.isDigit ++ (if (s.dropWhile Char.isDigit).head?.any continuesAfter then [] else ['.', '0']) ++
        addFractions (some c) (s.dropWhile Char.isDigit)
    else c :: addFractions (some c) s := by
  rw [addFractions]
  exact hquote

/-- Digits at which a number begins are kept, and get a fraction unless the rest continues them. -/
theorem addFractions_number {digits : List Char} {c : Char}
    (hstarts : (c.isDigit && !previous.any continuesBefore) = true) (hdigits : digits.all Char.isDigit = true)
    (hrest : rest.head?.any Char.isDigit = false) :
    addFractions previous (c :: (digits ++ rest)) =
      c :: digits ++ (if rest.head?.any continuesAfter then [] else ['.', '0']) ++ addFractions (some c) rest := by
  obtain ⟨htake, hdrop⟩ := Prod.mk.inj (Text.spanDigits_of_digits hdigits hrest)
  rw [addFractions_cons (ne_quote_of_isDigit (Bool.and_eq_true_iff.mp hstarts).1), if_pos hstarts, htake]
  simp only [hdrop]

/-- A character that is no digit is kept as it is. -/
theorem addFractions_of_not_isDigit {c : Char} (hquote : c ≠ '"') (hdigit : c.isDigit = false) :
    addFractions previous (c :: s) = c :: addFractions (some c) s := by
  rw [addFractions_cons hquote, hdigit]
  rfl

theorem continuesAfter_of_isDigit {c : Char} (h : c.isDigit = true) : continuesAfter c = true := by
  have hascii : c.toNat < 128 := by
    simp only [Char.isDigit, Bool.and_eq_true, decide_eq_true_eq, ge_iff_le, UInt32.le_iff_toNat_le] at h
    exact Nat.lt_of_le_of_lt h.2 (by decide)
  have hnumeric : Text.isNumeric c = true := by rw [Text.isNumeric, if_pos hascii, h]
  simp [continuesAfter, isWordChar, hnumeric]

/-- What precedes a text bears on it only where it continues a number. -/
theorem addFractions_eq_none (h : previous.any continuesBefore = false ∨ s.head?.any continuesAfter = false) :
    addFractions previous s = addFractions none s := by
  cases s with
  | nil => simp only [addFractions]
  | cons c s =>
    by_cases hquote : c = '"'
    · rw [hquote, addFractions_quoted, addFractions_quoted]
    rcases h with hprevious | hhead
    · rw [addFractions_cons hquote, addFractions_cons hquote, hprevious, Option.any_none]
    · have hdigit : c.isDigit = false := by
        rw [← Bool.not_eq_true]
        exact fun hc => absurd hhead (by simp [continuesAfter_of_isDigit hc])
      rw [addFractions_of_not_isDigit hquote hdigit, addFractions_of_not_isDigit hquote hdigit]

section
variable (hrest : rest.head?.any continuesAfter = false)
include hrest

theorem head?_not_isDigit {c : Char} (hc : rest.head? = some c) : c.isDigit = false := by
  rw [← Bool.not_eq_true]
  intro hdigit
  rw [hc] at hrest
  exact absurd hrest (by simp [continuesAfter_of_isDigit hdigit])

theorem span_isDigit_append : (s ++ rest).takeWhile Char.isDigit = s.takeWhile Char.isDigit ∧
    (s ++ rest).dropWhile Char.isDigit = s.dropWhile Char.isDigit ++ rest := by
  induction s with
  | nil =>
    cases rest with
    | nil => exact ⟨rfl, rfl⟩
    | cons c rest => simp [head?_not_isDigit hrest rfl]
  | cons c s ih =>
    rw [List.cons_append, List.takeWhile_cons, List.dropWhile_cons, ih.1, ih.2, List.takeWhile_cons, List.dropWhile_cons]
    split <;> exact ⟨rfl, rfl⟩

/-- Before a rest that continues no number a text is given its fractions as it is by itself. -/
theorem addFractions_append (h : Paired s) :
    addFractions previous (s ++ rest) = addFractions previous s ++ addFractions none rest := by
  fun_induction addFractions previous s with
  | case1 => exact addFractions_eq_none (.inr hrest)
  | case2 previous s ih =>
    cases h with
    | cons hquote => exact absurd rfl hquote
    | quoted hclosed hpaired =>
      rw [List.cons_append, addFractions_quoted, splitQuoted_append_of_closes hclosed, ih hpaired]
      simp
  | case3 previous c s hquote hnumber digits after fraction ih =>
    obtain ⟨htake, hdrop⟩ := span_isDigit_append hrest (s := s)
    have hhead : (after ++ rest).head?.any continuesAfter = after.head?.any continuesAfter := by
      cases after with
      | nil => exact hrest
      | cons => rfl
    rw [List.cons_append, addFractions_cons hquote, if_pos hnumber, htake, hdrop, hhead,
      ih (h.tail hquote).dropWhile_isDigit]
    simp [digits, fraction]
  | case4 previous c s hquote hnumber ih =>
    rw [List.cons_append, addFractions_cons hquote, if_neg hnumber, ih (h.tail hquote)]
    rfl

end

theorem head?_addFractions : (addFractions previous s).head? = s.head? := by
  cases s with
  | nil => simp [addFractions]
  | cons c s =>
    by_cases hquote : c = '"'
    · rw [hquote, addFractions_quoted]
      rfl
    · rw [addFractions_cons hquote]
      split <;> rfl

/-! ### Pieces -/

theorem pieces_quoted :
    pieces ('"' :: s) = (scanText s).bind fun x => (pieces x.2).map (joinPiece (.text (String.ofList x.1))) := by
  rw [pieces]
  split
  next heq => rw [heq]; rfl
  next heq => rw [heq]; rfl

theorem pieces_cons {c : Char} (hquote : c ≠ '"') (hcomment : c = '/' → s.head? ≠ some '/' ∧ s.head? ≠ some '*') :
    pieces (c :: s) = (pieces s).map (joinPiece (pieceOf c)) := by
  rw [pieces]
  · exact hquote
  · rintro _ rfl rfl
    exact (hcomment rfl).1 rfl
  · rintro _ rfl rfl
    exact (hcomment rfl).2 rfl

/-! ### Tokens -/

theorem pairToken?_eq (c : Char) (ps : List Piece) :
    pairToken? c ps = if ps.head? = some (.mark '=') then markEqualsToken? c else none := by
  unfold pairToken?
  split
  · rfl
  next hne =>
    rw [if_neg]
    intro hhead
    obtain ⟨tail, rfl⟩ := List.head?_eq_some_iff.mp hhead
    exact hne tail rfl

theorem pairToken?_append (c : Char) (ps rest : List Piece) :
    pairToken? c (ps ++ .mark ')' :: rest) = pairToken? c ps := by
  rw [pairToken?_eq, pairToken?_eq]
  cases ps <;> rfl

theorem readSplitDouble?_eq_some {w : List Char} {ps : List Piece} {x : Float} : readSplitDouble? w ps = some x ↔
    ∃ c t qs, ps = .mark c :: .word t :: qs ∧ (c = '+' ∨ c = '-') ∧ Text.readDouble? (w ++ c :: t) = some x := by
  constructor
  · intro h
    unfold readSplitDouble? at h
    split at h
    next c t qs =>
      split at h
      next hsign => exact ⟨c, t, qs, rfl, hsign, h⟩
      · cases h
    · cases h
  · rintro ⟨c, t, qs, rfl, hsign, hx⟩
    rw [readSplitDouble?, if_pos hsign, hx]

theorem readSplitDouble?_append (w : List Char) (ps rest : List Piece) :
    readSplitDouble? w (ps ++ .mark ')' :: rest) = readSplitDouble? w ps := by
  rcases ps with _ | ⟨p, _ | ⟨q, ps⟩⟩
  · cases rest with
    | nil => rfl
    | cons p rest => cases p <;> rfl
  · cases p <;> rfl
  · cases p <;> cases q <;> rfl

theorem map_token (t : Token) (ts : List Token) (x : Except Fault (List Token)) :
    (x.map (ts ++ .closing :: ·)).map (t :: ·) = x.map ((t :: ts) ++ .closing :: ·) := by
  cases x <;> rfl

theorem joinPieces_mark {c : Char} {ps : List Piece} (hand : c = '&' → ps.head? ≠ some (.mark '&'))
    (hor : c = '|' → ps.head? ≠ some (.mark '|')) : joinPieces (.mark c :: ps) =
      match pairToken? c ps with
      | some t => (joinPieces (ps.drop 1)).map (t :: ·)
      | none =>
        match markToken? c with
        | some t => (joinPieces ps).map (t :: ·)
        | none => .error (.strayMark (String.ofList [c]) (ps.head?.map Piece.display)) := by
  rw [joinPieces]
  all_goals first
    | rfl
    | rintro _ rfl rfl; exact hand rfl rfl
    | rintro _ rfl rfl; exact hor rfl rfl

/-- Before a closing parenthesis a mark joins with what comes after it as it does by itself. -/
theorem joinPieces_mark_append {c : Char} {ps : List Piece} (hand : ∀ tail, ps = .mark '&' :: tail → c = '&' → False)
    (hor : ∀ tail, ps = .mark '|' :: tail → c = '|' → False) (rest : List Piece) :
    joinPieces (.mark c :: ps ++ .mark ')' :: rest) =
      match pairToken? c ps with
      | some t => (joinPieces ((ps ++ .mark ')' :: rest).drop 1)).map (t :: ·)
      | none =>
        match markToken? c with
        | some t => (joinPieces (ps ++ .mark ')' :: rest)).map (t :: ·)
        | none => .error (.strayMark (String.ofList [c]) ((ps ++ .mark ')' :: rest).head?.map Piece.display)) := by
  have hhead {d : Char} (hd : ')' ≠ d) (h : ∀ tail, ps = .mark d :: tail → c = d → False) (hc : c = d) :
      (ps ++ .mark ')' :: rest).head? ≠ some (.mark d) := by
    cases ps with
    | nil => exact fun heq => hd (Piece.mark.inj (Option.some.inj heq))
    | cons p ps => exact fun heq => h ps (by rw [Option.some.inj heq]) hc
  rw [List.cons_append, joinPieces_mark (hhead (by decide) hand) (hhead (by decide) hor), pairToken?_append]

/-- Before a closing parenthesis pieces join into tokens as they do by themselves. -/
theorem joinPieces_append {ps : List Piece} {ts : List Token} (h : joinPieces ps = .ok ts) (rest : List Piece) :
    joinPieces (ps ++ .mark ')' :: rest) = (joinPieces rest).map (ts ++ .closing :: ·) := by
  fun_induction joinPieces ps generalizing ts with
  | case1 =>
    obtain rfl := Except.ok.inj h
    have hpair : pairToken? ')' rest = none := by
      rw [pairToken?_eq]
      exact ite_id none
    rw [List.nil_append, joinPieces_mark (fun heq => absurd heq (by decide)) (fun heq => absurd heq (by decide)), hpair]
    rfl
  | case2 s ps ih =>
    obtain ⟨us, hus, rfl⟩ := map_eq_ok.mp h
    rw [List.cons_append, joinPieces, ih hus, map_token]
  | case3 ps ih =>
    rw [List.cons_append, joinPieces, ih h]
  | case4 s ps c hconstant ih =>
    obtain ⟨us, hus, rfl⟩ := map_eq_ok.mp h
    rw [List.cons_append, joinPieces, hconstant]
    exact (congrArg _ (ih hus)).trans (map_token _ _ _)
  | case5 s ps hconstant x hsplit ih =>
    have hdrop : (ps ++ .mark ')' :: rest).drop 2 = ps.drop 2 ++ .mark ')' :: rest := by
      obtain ⟨c, t, qs, rfl, -⟩ := readSplitDouble?_eq_some.mp hsplit
      rfl
    obtain ⟨us, hus, rfl⟩ := map_eq_ok.mp h
    rw [List.cons_append, joinPieces, hconstant, readSplitDouble?_append, hsplit, hdrop]
    exact (congrArg _ (ih hus)).trans (map_token _ _ _)
  | case6 s ps hconstant hsplit ih =>
    obtain ⟨us, hus, rfl⟩ := map_eq_ok.mp h
    rw [List.cons_append, joinPieces, hconstant, readSplitDouble?_append, hsplit]
    exact (congrArg _ (ih hus)).trans (map_token _ _ _)
  | case7 ps ih | case8 ps ih =>
    obtain ⟨us, hus, rfl⟩ := map_eq_ok.mp h
    simp only [List.cons_append]
    rw [joinPieces, ih hus, map_token]
    rfl
  | case9 ps hequals ih | case10 ps hequals ih =>
    obtain ⟨us, hus, rfl⟩ := map_eq_ok.mp h
    simp only [List.cons_append]
    rw [joinPieces, ih hus, map_token]
    · rfl
    · intro tail heq
      cases ps with
      | nil => cases heq
      | cons p ps => exact hequals ps (by rw [(List.cons.inj heq).1])
  | case11 c ps _ _ hand hor t hpair ih =>
    have hdrop : (ps ++ .mark ')' :: rest).drop 1 = ps.drop 1 ++ .mark ')' :: rest := by
      cases ps with
      | nil => cases hpair
      | cons => rfl
    obtain ⟨us, hus, rfl⟩ := map_eq_ok.mp h
    rw [joinPieces_mark_append hand hor, hpair, hdrop]
    exact (congrArg _ (ih hus)).trans (map_token _ _ _)
  | case12 c ps _ _ hand hor hpair t hmark ih =>
    obtain ⟨us, hus, rfl⟩ := map_eq_ok.mp h
    rw [joinPieces_mark_append hand hor, hpair, hmark]
    exact (congrArg _ (ih hus)).trans (map_token _ _ _)
  | case13 => cases h

end SignalBridge.Expression
