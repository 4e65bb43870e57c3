import SignalBridge.Proofs.QuotedText

/-! Numerals. The characters of names and numbers stay together in words, and every token is read from some of the
    pieces of a text: an integer from a word of hexadecimal or decimal digits. -/

namespace SignalBridge.Expression
variable {s w : List Char} {c : Char} {ps : List Piece}

/-! ### Words -/

theorem not_continuesBefore_of_marks (h : c ∈ marks) : continuesBefore c = false := by
  have hall : marks.all (fun c => !continuesBefore c) = true := by decide +kernel
  simpa using List.all_eq_true.mp hall c h

/-- The code points of the blanks of ASCII. -/
def asciiBlanks : List Nat :=
  [9, 10, 11, 12, 13, 0x20]

/-- The ranges of the blanks beyond ASCII, ends included. -/
def blankRanges : List (Nat × Nat) :=
  [(0x85, 0x85), (0xa0, 0xa0), (0x1680, 0x1680), (0x2000, 0x200a), (0x2028, 0x2029), (0x202f, 0x202f), (0x205f, 0x205f),
    (0x3000, 0x3000)]

theorem mem_blanks (h : Text.isBlank c = true) :
    c.toNat ∈ asciiBlanks ∨ 128 ≤ c.toNat ∧ ∃ b ∈ blankRanges, b.1 ≤ c.toNat ∧ c.toNat ≤ b.2 := by
  simp only [Text.isBlank, Bool.or_eq_true, Bool.and_eq_true, decide_eq_true_eq, beq_iff_eq] at h
  simp only [asciiBlanks, blankRanges, List.mem_cons, List.not_mem_nil, or_false, exists_eq_or_imp, exists_eq_left]
  omega

/-- No range of word characters meets a range of blanks. -/
theorem blankRanges_apart : (Text.alphabeticRanges.toList ++ Text.numericRanges.toList).all (fun r =>
    blankRanges.all fun b => b.2 < r.1 || r.2 < b.1) = true := by
  decide +kernel

theorem not_inRanges {ranges : Array (Nat × Nat)} {b : Nat × Nat}
    (hsub : ranges.toList ⊆ Text.alphabeticRanges.toList ++ Text.numericRanges.toList) (hb : b ∈ blankRanges)
    (h : b.1 ≤ c.toNat ∧ c.toNat ≤ b.2) : Text.inRanges ranges c = false := by
  rw [Text.inRanges, ← Array.any_toList, List.any_eq_false]
  intro r hr
  have hapart := List.all_eq_true.mp (List.all_eq_true.mp blankRanges_apart r (hsub hr)) b hb
  simp only [Bool.or_eq_true, decide_eq_true_eq] at hapart
  simp only [Bool.and_eq_true, decide_eq_true_eq]
  omega

theorem not_continuesBefore_of_isBlank (h : Text.isBlank c = true) : continuesBefore c = false := by
  rcases mem_blanks h with hascii | ⟨hlarge, b, hb, hrange⟩
  · have hall : asciiBlanks.all (fun n => !continuesBefore (Char.ofNat n)) = true := by decide +kernel
    simpa [Char.ofNat_toNat] using List.all_eq_true.mp hall _ hascii
  · have hsmall : ¬ c.toNat < 128 := Nat.not_lt.mpr hlarge
    have hne (d : Char) (hd : d.toNat < 128) : (c == d) = false :=
      beq_eq_false_iff_ne.mpr fun heq => hsmall (heq ▸ hd)
    rw [continuesBefore, isWordChar, Text.isAlphabetic, Text.isNumeric, if_neg hsmall, if_neg hsmall,
      not_inRanges (List.subset_append_left _ _) hb hrange, not_inRanges (List.subset_append_right _ _) hb hrange,
      hne '_' (by decide), hne '.' (by decide), hne ':' (by decide)]
    rfl

/-- A character that continues a name or a number belongs to a word. -/
theorem pieceOf_of_continuesBefore (h : continuesBefore c = true) : pieceOf c = .word [c] := by
  unfold pieceOf
  split
  next hmark => exact absurd h (by simp [not_continuesBefore_of_marks (List.contains_iff_mem.mp hmark)])
  split
  next hblank => exact absurd h (by simp [not_continuesBefore_of_isBlank hblank])
  · rfl

theorem continuesBefore_of_continuesAfter (h : continuesAfter c = true) : continuesBefore c = true := by
  simp only [continuesAfter, continuesBefore, Bool.or_eq_true] at h ⊢
  exact .inl h

theorem continuesBefore_of_isDigit (h : c.isDigit = true) : continuesBefore c = true :=
  continuesBefore_of_continuesAfter (continuesAfter_of_isDigit h)

/-- Digits and points belong to words. -/
theorem pieceOf_of_numeral (h : c.isDigit = true ∨ c = '.') : pieceOf c = .word [c] ∧ c ≠ '"' := by
  rcases h with hdigit | rfl
  · exact ⟨pieceOf_of_continuesBefore (continuesBefore_of_isDigit hdigit), ne_quote_of_isDigit hdigit⟩
  · exact ⟨by decide +kernel, by decide⟩

theorem joinPiece_word (a b : List Char) (ps : List Piece) :
    joinPiece (.word a) (joinPiece (.word b) ps) = joinPiece (.word (a ++ b)) ps := by
  rcases ps with _ | ⟨p, ps⟩
  · rfl
  · cases p with
    | word d => simp [joinPiece]
    | _ => rfl

/-- Characters of words stay together. -/
theorem pieces_word (hw : ∀ c ∈ w, pieceOf c = .word [c] ∧ c ≠ '"') (hne : w ≠ []) :
    pieces (w ++ s) = (pieces s).map (joinPiece (.word w)) := by
  induction w with
  | nil => exact absurd rfl hne
  | cons c w ih =>
    obtain ⟨⟨hc, hquote⟩, hw⟩ := List.forall_mem_cons.mp hw
    have hslash : c ≠ '/' := by
      rintro rfl
      exact absurd hc (by decide)
    rw [List.cons_append, pieces_cons hquote (fun heq => absurd heq hslash), hc]
    cases w with
    | nil => rfl
    | cons d w =>
      rw [ih hw (List.cons_ne_nil d w)]
      cases pieces s with
      | error _ => rfl
      | ok ps => exact congrArg Except.ok (joinPiece_word [c] (d :: w) ps)

/-- A character of a word begins one, together with a word that begins right after it. -/
theorem joinPiece_char (c : Char) (ps : List Piece) : ∃ b qs, joinPiece (.word [c]) ps = .word (c :: b) :: qs ∧
    qs ⊆ ps ∧ (b = [] ∨ ps.head? = some (.word b)) := by
  rcases ps with _ | ⟨p, ps⟩
  · exact ⟨[], [], rfl, List.nil_subset _, .inl rfl⟩
  · cases p with
    | word b => exact ⟨b, ps, rfl, List.subset_cons_self _ _, .inr rfl⟩
    | _ => exact ⟨[], _, rfl, List.Subset.refl _, .inl rfl⟩

/-! ### Numbers -/

/-- What the words of hexadecimal numbers begin with. -/
def hexMark : List Char :=
  ['0', 'x']

/-- A word that denotes an integer by hexadecimal digits. -/
def Piece.isHexadecimal : Piece → Bool
  | .word w => hexMark.isPrefixOf w && (readInteger? w).isSome
  | _ => false

/-- An integer is written in hexadecimal or in decimal digits. -/
theorem isHexadecimal_or_digits {i : Int64} (h : readInteger? w = some i) :
    (Piece.word w).isHexadecimal = true ∨ w ≠ [] ∧ w.all Char.isDigit = true := by
  have hsome : (readInteger? w).isSome = true := by rw [h]; rfl
  unfold readInteger? at h
  dsimp only at h
  split at h
  next digits =>
    have hmark : hexMark.isPrefixOf ('0' :: 'x' :: digits) = true := rfl
    exact .inl (Bool.and_eq_true_iff.mpr ⟨hmark, hsome⟩)
  · obtain ⟨n, hn, -⟩ := Option.bind_eq_some_iff.mp h
    split at hn
    next hdigits => exact .inr (by simpa using hdigits)
    · cases hn

theorem integer_of_readConstant? {i : Int64} (h : readConstant? w = some (.integer i)) : readInteger? w = some i := by
  unfold readConstant? at h
  split at h
  next hread => rwa [← Constant.integer.inj (Option.some.inj h)]
  · split at h
    · cases h
    · split at h
      · cases h
      · split at h <;> cases h

theorem markEqualsToken?_ne_constant (k : Constant) : markEqualsToken? c ≠ some (.constant k) := by
  unfold markEqualsToken?
  split <;> simp

theorem markToken?_ne_constant (k : Constant) : markToken? c ≠ some (.constant k) := by
  unfold markToken?
  split <;> simp

/-! ### Where tokens come from -/

/-- What a token is read from: a quoted text, a word, a word with a sign and another word, or marks. -/
inductive Token.ReadFrom (ps : List Piece) : Token → Prop
  | text {text : String} (h : .text text ∈ ps) : ReadFrom ps (.constant (.text text))
  | constant {w : List Char} {k : Constant} (h : .word w ∈ ps) (hk : readConstant? w = some k) :
      ReadFrom ps (.constant k)
  | split {w : List Char} (h : .word w ∈ ps) (x : Float) : ReadFrom ps (.constant (.double x))
  | identifier {w : List Char} (h : .word w ∈ ps) : ReadFrom ps (.identifier (String.ofList w))
  | connective {b : Binary} (hb : b = .and ∨ b = .or) : ReadFrom ps (.binary b)
  | connectiveAssign {b : Binary} (hb : b = .and ∨ b = .or) : ReadFrom ps (.updateAssign b)
  | pair {c : Char} {t : Token} (h : .mark c ∈ ps) (ht : markEqualsToken? c = some t) : ReadFrom ps t
  | mark {c : Char} {t : Token} (h : .mark c ∈ ps) (ht : markToken? c = some t) : ReadFrom ps t

theorem Token.ReadFrom.mono {t : Token} {qs : List Piece} (h : t.ReadFrom ps) (hsub : ps ⊆ qs) : t.ReadFrom qs := by
  cases h with
  | text h => exact .text (hsub h)
  | constant h hk => exact .constant (hsub h) hk
  | split h x => exact .split (hsub h) x
  | identifier h => exact .identifier (hsub h)
  | connective hb => exact .connective hb
  | connectiveAssign hb => exact .connectiveAssign hb
  | pair h ht => exact .pair (hsub h) ht
  | mark h ht => exact .mark (hsub h) ht

theorem forall_mem_of_map {P : Token → Prop} {ts : List Token} {t : Token} {x : Except Fault (List Token)} (ht : P t)
    (hx : ∀ {us}, x = .ok us → ∀ u ∈ us, P u) (h : x.map (t :: ·) = .ok ts) : ∀ u ∈ ts, P u := by
  obtain ⟨us, hus, rfl⟩ := map_eq_ok.mp h
  exact List.forall_mem_cons.mpr ⟨ht, hx hus⟩

/-- Every token is read from some of the pieces. -/
theorem readFrom_of_mem {ts : List Token} (h : joinPieces ps = .ok ts) : ∀ t ∈ ts, t.ReadFrom ps := by
  fun_induction joinPieces ps generalizing ts with
  | case1 =>
    obtain rfl := Except.ok.inj h
    exact List.forall_mem_nil _
  | case2 s ps ih =>
    exact forall_mem_of_map (.text (.head _)) (fun hus u hu => (ih hus u hu).mono (List.subset_cons_self _ _)) h
  | case3 ps ih => exact fun t ht => (ih h t ht).mono (List.subset_cons_self _ _)
  | case4 s ps k hconstant ih =>
    exact forall_mem_of_map (.constant (.head _) hconstant)
      (fun hus u hu => (ih hus u hu).mono (List.subset_cons_self _ _)) h
  | case5 s ps _ x _ ih =>
    exact forall_mem_of_map (.split (.head _) x)
      (fun hus u hu => (ih hus u hu).mono fun _ hp => .tail _ (List.mem_of_mem_drop hp)) h
  | case6 s ps _ _ ih =>
    exact forall_mem_of_map (.identifier (.head _)) (fun hus u hu => (ih hus u hu).mono (List.subset_cons_self _ _)) h
  | case7 ps ih =>
    exact forall_mem_of_map (.connectiveAssign (.inl rfl))
      (fun hus u hu => (ih hus u hu).mono fun _ hp => .tail _ (.tail _ (.tail _ hp))) h
  | case8 ps ih =>
    exact forall_mem_of_map (.connectiveAssign (.inr rfl))
      (fun hus u hu => (ih hus u hu).mono fun _ hp => .tail _ (.tail _ (.tail _ hp))) h
  | case9 ps _ ih =>
    exact forall_mem_of_map (.connective (.inl rfl))
      (fun hus u hu => (ih hus u hu).mono fun _ hp => .tail _ (.tail _ hp)) h
  | case10 ps _ ih =>
    exact forall_mem_of_map (.connective (.inr rfl))
      (fun hus u hu => (ih hus u hu).mono fun _ hp => .tail _ (.tail _ hp)) h
  | case11 c ps _ _ _ _ t hpair ih =>
    rw [pairToken?_eq] at hpair
    split at hpair
    · exact forall_mem_of_map (.pair (.head _) hpair)
        (fun hus u hu => (ih hus u hu).mono fun _ hp => .tail _ (List.mem_of_mem_drop hp)) h
    · cases hpair
  | case12 c ps _ _ _ _ _ t hmark ih =>
    exact forall_mem_of_map (.mark (.head _) hmark) (fun hus u hu => (ih hus u hu).mono (List.subset_cons_self _ _)) h
  | case13 => cases h

/-- An integer among the tokens was read from a word. -/
theorem exists_word_of_integer {ts : List Token} {i : Int64} (h : joinPieces ps = .ok ts)
    (hi : .constant (.integer i) ∈ ts) : ∃ w, .word w ∈ ps ∧ readInteger? w = some i := by
  cases readFrom_of_mem h _ hi with
  | constant hw hk => exact ⟨_, hw, integer_of_readConstant? hk⟩
  | pair _ ht => exact absurd ht (markEqualsToken?_ne_constant _)
  | mark _ ht => exact absurd ht (markToken?_ne_constant _)

end SignalBridge.Expression
