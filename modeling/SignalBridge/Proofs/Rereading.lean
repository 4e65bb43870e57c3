import Mathlib.Data.List.Forall2
import SignalBridge.Proofs.Legible
import SignalBridge.Proofs.WholeDouble

/-! Reading with fractions. A text that is cut into tokens still is with fractions given to its whole numbers. Where
    whole numbers stand in words of their own, words are set apart, and no exponent has a sign, its tokens are the
    same but for the whole numbers, which are doubles then. -/

namespace SignalBridge.Expression
variable {s w : List Char} {c : Char} {ps : List Piece} {previous : Option Char}

/-! ### Whole numbers in words -/

/-- Somewhere in the word digits begin, and neither what precedes them nor what follows them continues a name or a
    number. -/
def HoldsWhole (w : List Char) : Prop :=
  ∃ n < w.length, (w.take n).getLast?.any continuesBefore = false ∧ (w.drop n).head?.any Char.isDigit = true ∧
    ((w.drop n).dropWhile Char.isDigit).head?.any continuesAfter = false

instance (w : List Char) : Decidable (HoldsWhole w) :=
  inferInstanceAs (Decidable (∃ n < w.length, _))

/-- Behind `front`, fractions are given to no digits but those of whole numbers that the word holds. -/
theorem addFractions_of_not_holdsWhole_append (front : List Char)
    (hprevious : previous.any continuesBefore = front.getLast?.any continuesBefore) (hquote : '"' ∉ s)
    (h : ¬HoldsWhole (front ++ s)) : addFractions previous s = s := by
  fun_induction addFractions previous s generalizing front with
  | case1 => rfl
  | case2 => simp at hquote
  | case3 previous c s _ hnumber digits after fraction =>
    rename_i ih
    obtain ⟨hdigit, hstarts⟩ := Bool.and_eq_true_iff.mp hnumber
    have hsplit : digits ++ after = s := List.takeWhile_append_dropWhile
    have hafter : after.head?.any continuesAfter = true := by
      by_contra hends
      refine h ⟨front.length, by simp, ?_, by simp [hdigit], ?_⟩
      · rw [List.take_left, ← hprevious]
        simpa using hstarts
      · rw [List.drop_left, List.dropWhile_cons_of_pos hdigit]
        exact Bool.eq_false_iff.mpr hends
    have hfraction : fraction = [] := if_pos hafter
    have hbefore : (some c).any continuesBefore = (front ++ c :: digits).getLast?.any continuesBefore := by
      obtain ⟨init, last, hlast, hlastdigit⟩ := exists_last_digit hdigit s
      rw [hlast, ← List.append_assoc, List.getLast?_append_of_ne_nil _ (List.cons_ne_nil last []), List.getLast?_singleton,
        Option.any_some, Option.any_some, continuesBefore_of_isDigit hdigit, continuesBefore_of_isDigit hlastdigit]
    have hword : front ++ c :: digits ++ after = front ++ c :: s := by
      rw [List.append_assoc, List.cons_append, hsplit]
    have hquote' : '"' ∉ after := fun hmem => hquote (.tail c (hsplit ▸ List.mem_append_right digits hmem))
    rw [hfraction, List.append_nil, ih (front ++ c :: digits) hbefore hquote' (hword ▸ h), List.cons_append, hsplit]
  | case4 previous c s _ hnumber ih =>
    rw [ih (front ++ [c]) (by simp) (fun hmem => hquote (.tail _ hmem)) (by simpa using h)]

/-- A word that holds no whole number is left alone. -/
theorem addFractions_of_not_holdsWhole (hquote : '"' ∉ w) (h : ¬HoldsWhole w) : addFractions none w = w :=
  addFractions_of_not_holdsWhole_append [] rfl hquote h

theorem addFractions_of_digits (hne : w ≠ []) (hw : w.all Char.isDigit = true) :
    addFractions none w = w ++ ['.', '0'] := by
  obtain ⟨c, s, rfl⟩ := List.exists_cons_of_ne_nil hne
  rw [List.all_cons, Bool.and_eq_true_iff] at hw
  have hstarts : (c.isDigit && !(none : Option Char).any continuesBefore) = true := by simp [hw.1]
  have hend : ([] : List Char).head?.any Char.isDigit = false := rfl
  have hnumber := addFractions_number hstarts hw.2 hend
  rwa [List.append_nil, addFractions, List.append_nil] at hnumber

/-! ### Words -/

/-- Words are not empty, and marks, blanks and quotes stay outside of them. -/
theorem ordinary_of_pieces (hread : pieces s = .ok ps) (hw : .word w ∈ ps) : w ≠ [] ∧ ∀ c ∈ w, Ordinary c := by
  fun_induction pieces s generalizing ps w with
  | case1 =>
    obtain rfl := Except.ok.inj hread
    cases hw
  | case2 s text rest hscan ih =>
    obtain ⟨qs, hqs, rfl⟩ := map_eq_ok.mp hread
    exact ih hqs ((List.mem_cons.mp hw).resolve_left (by simp))
  | case3 => cases hread
  | case4 s ih => exact ih hread hw
  | case5 s rest hend ih => exact ih hread hw
  | case6 => cases hread
  | case7 c s hquote hline hblock ih =>
    obtain ⟨qs, hqs, rfl⟩ := map_eq_ok.mp hread
    by_cases hc : Ordinary c
    · obtain ⟨b, qs', hjoin, hsub, hb⟩ := joinPiece_char c qs
      rw [hc.1, hjoin] at hw
      rcases List.mem_cons.mp hw with heq | hw
      · obtain rfl := Piece.word.inj heq
        refine ⟨List.cons_ne_nil c b, List.forall_mem_cons.mpr ⟨hc, ?_⟩⟩
        rcases hb with rfl | hhead
        · exact List.forall_mem_nil _
        · exact (ih hqs (List.mem_of_mem_head? hhead)).2
      · exact ih hqs (hsub hw)
    · rw [joinPiece_separator hquote hc] at hw
      rcases List.mem_cons.mp hw with heq | hw
      · rcases pieceOf_separator hquote hc with hp | hp <;> rw [hp] at heq <;> cases heq
      · exact ih hqs hw

/-! ### Reading words in another way -/

/-- The tokens that pieces make where `constant?` tells the constants that words denote. -/
def joinPiecesWith (constant? : List Char → Option Constant) : List Piece → Except Fault (List Token)
  | [] => .ok []
  | .text s :: ps => (joinPiecesWith constant? ps).map (.constant (.text s) :: ·)
  | .blank :: ps => joinPiecesWith constant? ps
  | .word s :: ps =>
    match constant? s with
    | some c => (joinPiecesWith constant? ps).map (.constant c :: ·)
    | none =>
      match readSplitDouble? s ps with
      | some x => (joinPiecesWith constant? (ps.drop 2)).map (.constant (.double x) :: ·)
      | none => (joinPiecesWith constant? ps).map (.identifier (String.ofList s) :: ·)
  | .mark '&' :: .mark '&' :: .mark '=' :: ps => (joinPiecesWith constant? ps).map (.updateAssign .and :: ·)
  | .mark '|' :: .mark '|' :: .mark '=' :: ps => (joinPiecesWith constant? ps).map (.updateAssign .or :: ·)
  | .mark '&' :: .mark '&' :: ps => (joinPiecesWith constant? ps).map (.binary .and :: ·)
  | .mark '|' :: .mark '|' :: ps => (joinPiecesWith constant? ps).map (.binary .or :: ·)
  | .mark c :: ps =>
    match pairToken? c ps with
    | some t => (joinPiecesWith constant? (ps.drop 1)).map (t :: ·)
    | none =>
      match markToken? c with
      | some t => (joinPiecesWith constant? ps).map (t :: ·)
      | none => .error (.strayMark (String.ofList [c]) (ps.head?.map Piece.display))
termination_by ps => ps.length
decreasing_by all_goals simp; try omega

theorem joinPiecesWith_readConstant? (ps : List Piece) : joinPiecesWith readConstant? ps = joinPieces ps := by
  fun_induction joinPieces ps with
  | case1 => rw [joinPiecesWith]
  | case2 _ _ ih | case3 _ ih | case7 _ ih | case8 _ ih => rw [joinPiecesWith, ih]
  | case4 w ps c hconstant ih => rw [joinPiecesWith, hconstant, ← ih]
  | case5 w ps hconstant x hsplit ih => rw [joinPiecesWith, hconstant, hsplit, ← ih]
  | case6 w ps hconstant hsplit ih => rw [joinPiecesWith, hconstant, hsplit, ← ih]
  | case9 ps hequals ih | case10 ps hequals ih =>
    rw [joinPiecesWith, ih]
    exact hequals
  | case11 c ps _ _ _ _ t hpair ih => rw [joinPiecesWith, hpair, ← ih] <;> assumption
  | case12 c ps _ _ _ _ hpair t hmark ih => rw [joinPiecesWith, hpair, hmark, ← ih] <;> assumption
  | case13 c ps _ _ _ _ hpair hmark => rw [joinPiecesWith, hpair, hmark] <;> assumption

theorem joinPiecesWith_mark {constant? : List Char → Option Constant} (hand : c = '&' → ps.head? ≠ some (.mark '&'))
    (hor : c = '|' → ps.head? ≠ some (.mark '|')) : joinPiecesWith constant? (.mark c :: ps) =
      match pairToken? c ps with
      | some t => (joinPiecesWith constant? (ps.drop 1)).map (t :: ·)
      | none =>
        match markToken? c with
        | some t => (joinPiecesWith constant? ps).map (t :: ·)
        | none => .error (.strayMark (String.ofList [c]) (ps.head?.map Piece.display)) := by
  rw [joinPiecesWith]
  all_goals first
    | rfl
    | rintro _ rfl rfl; exact hand rfl rfl
    | rintro _ rfl rfl; exact hor rfl rfl

/-- Each word has the property together with the pieces after it. -/
def EachWord (P : List Char → List Piece → Prop) (ps : List Piece) : Prop :=
  ∀ w rest, .word w :: rest <:+ ps → P w rest

theorem EachWord.of_suffix {P : List Char → List Piece → Prop} {qs : List Piece} (h : EachWord P ps) (hsuffix : qs <:+ ps) :
    EachWord P qs :=
  fun w rest hw => h w rest (hw.trans hsuffix)

theorem EachWord.tail {P : List Char → List Piece → Prop} {p : Piece} (h : EachWord P (p :: ps)) : EachWord P ps :=
  h.of_suffix (List.suffix_cons p ps)

section
variable {k k' : List Char → Option Constant} {f : List Char → List Char} {R : Token → Token → Prop} {ts : List Token}

/-- Before `rest`, the word is read by `k` as `f` of it is by `k'`: as constants that make related tokens, or as the
    same name, which joins with no number after a sign. -/
def ReadsLike (R : Token → Token → Prop) (k k' : List Char → Option Constant) (f : List Char → List Char)
    (w : List Char) (rest : List Piece) : Prop :=
  (∃ c c', k w = some c ∧ k' (f w) = some c' ∧ R (.constant c) (.constant c')) ∨
    k w = none ∧ k' (f w) = none ∧ f w = w ∧ readSplitDouble? w rest = none ∧
      readSplitDouble? w (rest.map (Piece.mapWord f)) = none

theorem forall₂_map {t t' : Token} {x : Except Fault (List Token)} (ht : R t t')
    (h : ∃ ts', x = .ok ts' ∧ List.Forall₂ R ts ts') : ∃ ts', x.map (t' :: ·) = .ok ts' ∧ List.Forall₂ R (t :: ts) ts' := by
  obtain ⟨ts', rfl, hts⟩ := h
  exact ⟨t' :: ts', rfl, .cons ht hts⟩

/-- Pieces whose words are read alike make related tokens. -/
theorem joinPiecesWith_mapWord (hrefl : ∀ t, R t t) (hwords : EachWord (ReadsLike R k k' f) ps)
    (h : joinPiecesWith k ps = .ok ts) :
    ∃ ts', joinPiecesWith k' (ps.map (Piece.mapWord f)) = .ok ts' ∧ List.Forall₂ R ts ts' := by
  have hmarks := keepsMarks_mapWord f
  fun_induction joinPiecesWith k ps generalizing ts with
  | case1 =>
    obtain rfl := Except.ok.inj h
    exact ⟨[], by rw [List.map_nil, joinPiecesWith], .nil⟩
  | case2 s ps ih =>
    obtain ⟨us, hus, rfl⟩ := map_eq_ok.mp h
    rw [List.map_cons, Piece.mapWord, joinPiecesWith]
    exact forall₂_map (hrefl _) (ih hwords.tail hus)
  | case3 ps ih =>
    rw [List.map_cons, Piece.mapWord, joinPiecesWith]
    exact ih hwords.tail h
  | case4 w ps c hconstant ih =>
    obtain ⟨us, hus, rfl⟩ := map_eq_ok.mp h
    rcases hwords w ps (List.suffix_refl _) with ⟨d, c', hd, hc', hR⟩ | ⟨hnone, -⟩
    · obtain rfl := Option.some.inj (hconstant.symm.trans hd)
      rw [List.map_cons, Piece.mapWord, joinPiecesWith, hc']
      exact forall₂_map hR (ih hwords.tail hus)
    · cases hconstant.symm.trans hnone
  | case5 w ps hconstant x hsplit ih =>
    rcases hwords w ps (List.suffix_refl _) with ⟨d, c', hd, -⟩ | ⟨-, -, -, hnone, -⟩
    · cases hconstant.symm.trans hd
    · cases hsplit.symm.trans hnone
  | case6 w ps hconstant hsplit ih =>
    obtain ⟨us, hus, rfl⟩ := map_eq_ok.mp h
    rcases hwords w ps (List.suffix_refl _) with ⟨d, c', hd, -⟩ | ⟨-, hnone, hf, -, hsplit'⟩
    · cases hconstant.symm.trans hd
    · rw [hf] at hnone
      rw [List.map_cons, Piece.mapWord, hf, joinPiecesWith, hnone, hsplit']
      exact forall₂_map (hrefl _) (ih hwords.tail hus)
  | case7 ps ih | case8 ps ih =>
    obtain ⟨us, hus, rfl⟩ := map_eq_ok.mp h
    simp only [List.map_cons, Piece.mapWord]
    rw [joinPiecesWith]
    exact forall₂_map (hrefl _) (ih hwords.tail.tail.tail hus)
  | case9 ps hequals ih | case10 ps hequals ih =>
    obtain ⟨us, hus, rfl⟩ := map_eq_ok.mp h
    simp only [List.map_cons, Piece.mapWord]
    rw [joinPiecesWith]
    · exact forall₂_map (hrefl _) (ih hwords.tail.tail hus)
    · exact hmarks.ne_equals hequals
  | case11 c ps _ _ hand hor t hpair ih =>
    obtain ⟨us, hus, rfl⟩ := map_eq_ok.mp h
    rw [List.map_cons, Piece.mapWord, joinPiecesWith_mark (hmarks.head?_ne hand) (hmarks.head?_ne hor), hmarks.pairToken?,
      hpair, ← List.map_drop]
    exact forall₂_map (hrefl _) (ih (hwords.tail.of_suffix (List.drop_suffix 1 ps)) hus)
  | case12 c ps _ _ hand hor hpair t hmark ih =>
    obtain ⟨us, hus, rfl⟩ := map_eq_ok.mp h
    rw [List.map_cons, Piece.mapWord, joinPiecesWith_mark (hmarks.head?_ne hand) (hmarks.head?_ne hor), hmarks.pairToken?,
      hpair, hmark]
    exact forall₂_map (hrefl _) (ih hwords.tail hus)
  | case13 => cases h

end

theorem mapWord_id : Piece.mapWord id = id := by
  funext p
  cases p <;> rfl

/-! ### Plain texts -/

/-- The constant that a word denotes where whole numbers have a fraction. -/
def readFractioned? (w : List Char) : Option Constant :=
  if w.all Char.isDigit then (readConstant? w).map Constant.asDouble else readConstant? w

/-- The second token is the first, or the double nearest to the integer that the first one is. -/
def Token.Fractioned (t t' : Token) : Prop :=
  t' = t ∨ ∃ i : Int64, t = .constant (.integer i) ∧ t' = .constant (.double (Double.ofInt i.toInt))

/-- Words are set apart, whole numbers are words of their own, and no exponent has a sign. -/
structure Plain (source : String) : Prop where
  legible : Legible false source.toList
  whole : ∀ {ps}, pieces source.toList = .ok ps → ∀ w, .word w ∈ ps → HoldsWhole w → w.all Char.isDigit = true
  unsigned : ∀ {ps}, pieces source.toList = .ok ps →
    EachWord (fun w rest => readConstant? w = none → readSplitDouble? w rest = none) ps

/-- The tokens of an expression where `constant?` tells the constants that words denote. -/
def tokenizeWith (constant? : List Char → Option Constant) (source : String) : Except Fault (List Token) :=
  (pieces source.toList).bind (joinPiecesWith constant?)

theorem tokenizeWith_readConstant? (source : String) : tokenizeWith readConstant? source = tokenize source := by
  rw [tokenizeWith, tokenize, show joinPiecesWith readConstant? = joinPieces from funext joinPiecesWith_readConstant?]

section
variable {source : String} (hplain : Plain source) (hread : pieces source.toList = .ok ps)
include hplain hread

theorem Plain.addFractions_word (hw : .word w ∈ ps) : w.all Char.isDigit = true ∧ addFractions none w = w ++ ['.', '0'] ∨
    w.all Char.isDigit = false ∧ addFractions none w = w := by
  obtain ⟨hne, hordinary⟩ := ordinary_of_pieces hread hw
  by_cases hdigits : w.all Char.isDigit = true
  · exact .inl ⟨hdigits, addFractions_of_digits hne hdigits⟩
  · have hquote : '"' ∉ w := fun hmem => (hordinary _ hmem).2 rfl
    refine .inr ⟨Bool.eq_false_iff.mpr hdigits, addFractions_of_not_holdsWhole hquote fun hholds => ?_⟩
    exact hdigits (hplain.whole hread w hw hholds)

/-- A fraction makes no number of a word, a sign and another word. -/
theorem Plain.readSplitDouble?_mapWord {rest : List Piece} (hrest : .word w :: rest <:+ ps)
    (hnone : readSplitDouble? w rest = none) :
    readSplitDouble? w (rest.map (Piece.mapWord (addFractions none))) = none := by
  obtain ⟨hne, hordinary⟩ := ordinary_of_pieces hread (hrest.subset List.mem_cons_self)
  have hsigns : '+' ∉ w ∧ '-' ∉ w :=
    ⟨fun h => absurd (hordinary _ h).1 (by decide), fun h => absurd (hordinary _ h).1 (by decide)⟩
  by_contra hsome
  obtain ⟨x, hx⟩ := Option.ne_none_iff_exists'.mp hsome
  obtain ⟨c, u, tail, heq, hsign, hx⟩ := readSplitDouble?_eq_some.mp hx
  obtain ⟨p, qs, rfl, hp, hqs⟩ := List.map_eq_cons_iff.mp heq
  obtain ⟨q, qs, rfl, hq, -⟩ := List.map_eq_cons_iff.mp hqs
  obtain rfl := (keepsMarks_mapWord _ p c).mp hp
  cases q with
  | word t =>
    have ht : .word t ∈ ps := hrest.subset (by simp)
    obtain rfl := Piece.word.inj hq
    rcases hplain.addFractions_word hread ht with ⟨-, hadd⟩ | ⟨-, hadd⟩
    · -- The fraction would be part of the exponent, which consists of digits.
      rw [hadd] at hx
      have hall := Text.digits_of_readDouble? hsign hne hsigns hx
      simp at hall
    · rw [hadd] at hx
      cases hnone.symm.trans (readSplitDouble?_eq_some.mpr ⟨c, t, qs, rfl, hsign, hx⟩)
  | _ => cases hq

theorem Plain.readsLike_fractioned : EachWord (ReadsLike Token.Fractioned readConstant? readFractioned? id) ps := by
  intro w rest hrest
  cases hconstant : readConstant? w with
  | none =>
    have hsplit := hplain.unsigned hread w rest hrest hconstant
    refine .inr ⟨hconstant, ?_, rfl, hsplit, ?_⟩
    · simp [readFractioned?, hconstant]
    · rwa [mapWord_id, List.map_id]
  | some c =>
    by_cases hdigits : w.all Char.isDigit = true
    · refine .inl ⟨c, c.asDouble, hconstant, by rw [id, readFractioned?, if_pos hdigits, hconstant]; rfl, ?_⟩
      cases c with
      | integer i => exact .inr ⟨i, rfl, rfl⟩
      | _ => exact .inl rfl
    · exact .inl ⟨c, c, hconstant, by rw [id, readFractioned?, if_neg hdigits, hconstant], .inl rfl⟩

theorem Plain.readsLike_addFractions : EachWord (ReadsLike Eq readFractioned? readConstant? (addFractions none)) ps := by
  intro w rest hrest
  have hw : .word w ∈ ps := hrest.subset List.mem_cons_self
  rcases hplain.addFractions_word hread hw with ⟨hdigits, hadd⟩ | ⟨hdigits, hadd⟩
  · obtain ⟨hfraction, hsome⟩ := readConstant?_fraction (ordinary_of_pieces hread hw).1 hdigits
    obtain ⟨c, hc⟩ := Option.isSome_iff_exists.mp hsome
    refine .inl ⟨c.asDouble, c.asDouble, ?_, ?_, rfl⟩
    · rw [readFractioned?, if_pos hdigits, hc]
      rfl
    · rw [hadd, hfraction, hc]
      rfl
  · have hsame : readFractioned? w = readConstant? w := if_neg (by simp [hdigits])
    cases hconstant : readConstant? w with
    | none =>
      have hsplit := hplain.unsigned hread w rest hrest hconstant
      exact .inr ⟨hsame.trans hconstant, hadd.symm ▸ hconstant, hadd, hsplit,
        hplain.readSplitDouble?_mapWord hread hrest hsplit⟩
    | some c => exact .inl ⟨c, c, hsame.trans hconstant, hadd.symm ▸ hconstant, rfl⟩

end

/-- The tokens of a plain text with fractions are its own, but that decimal digits denote doubles. -/
theorem Plain.exists_fractioned {source : String} {ts : List Token} (hplain : Plain source)
    (hread : tokenize source = .ok ts) :
    ∃ ts', tokenizeWith readFractioned? source = .ok ts' ∧ tokenize (withFractions source) = .ok ts' ∧
      List.Forall₂ Token.Fractioned ts ts' := by
  obtain ⟨ps, hps, hts⟩ := bind_eq_ok.mp hread
  rw [← joinPiecesWith_readConstant?] at hts
  obtain ⟨ts', hts', hfractioned⟩ := joinPiecesWith_mapWord (fun t => .inl rfl) (hplain.readsLike_fractioned hps) hts
  rw [mapWord_id, List.map_id] at hts'
  -- The words with fractions are read as the words without were read just now.
  obtain ⟨us, hus, heq⟩ := joinPiecesWith_mapWord (fun t => rfl) (hplain.readsLike_addFractions hps) hts'
  obtain rfl : ts' = us := List.forall₂_eq_eq_eq ▸ heq
  refine ⟨ts', ?_, ?_, hfractioned⟩
  · rw [tokenizeWith, hps]
    exact hts'
  · rwa [hplain.legible.tokenize_fractioned hps, ← joinPiecesWith_readConstant?]

/-- A text that is cut into tokens still is with fractions given to its whole numbers. Of a plain text the tokens are
    those of the text itself, but that words of decimal digits denote the doubles nearest to their numbers. -/
theorem tokenize_withFractions {source : String} {ts : List Token} (hread : tokenize source = .ok ts) :
    ∃ ts', tokenize (withFractions source) = .ok ts' ∧
      (Plain source → tokenizeWith readConstant? source = .ok ts ∧ tokenizeWith readFractioned? source = .ok ts' ∧
        List.Forall₂ Token.Fractioned ts ts') := by
  obtain ⟨ts', hts'⟩ := exists_tokenize_withFractions hread
  refine ⟨ts', hts', fun hplain => ?_⟩
  obtain ⟨us, hus, hread', hfractioned⟩ := hplain.exists_fractioned hread
  obtain rfl := Except.ok.inj (hts'.symm.trans hread')
  exact ⟨(tokenizeWith_readConstant? source).trans hread, hus, hfractioned⟩

/-- A text with a name that ends in a digit, a comment with a quoted digit and a hexadecimal number. -/
theorem tokenize_withFractions_commented :
    tokenizeWith readFractioned? "x2 / 40 /*\"7\"*/ + 0x1f" = tokenize (withFractions "x2 / 40 /*\"7\"*/ + 0x1f") := by
  have hread : (tokenize "x2 / 40 /*\"7\"*/ + 0x1f").toOption = some [.identifier "x2", .binary (.arithmetic .divide),
      .constant (.integer 40), .binary (.arithmetic .add), .constant (.integer 31)] := by
    decide +kernel
  have hpieces : (pieces "x2 / 40 /*\"7\"*/ + 0x1f".toList).toOption = some [.word ['x', '2'], .blank, .mark '/', .blank,
      .word ['4', '0'], .blank, .blank, .mark '+', .blank, .word ['0', 'x', '1', 'f']] := by
    decide +kernel
  rw [toOption_eq_some] at hread hpieces
  have hlegible : Legible false "x2 / 40 /*\"7\"*/ + 0x1f".toList := by
    have hrest : Legible false " + 0x1f".toList := Uncommented.legible (.of_plain (by decide) (by decide))
    have hcomment : Legible false ('/' :: '*' :: ("\"7\"".toList ++ '*' :: '/' :: " + 0x1f".toList)) :=
      .block (.quoted rfl .nil) rfl hrest
    have hordinary {w : List Char} (h : w.all (fun c => decide (Ordinary c)) = true) : ∀ c ∈ w, Ordinary c := by
      simpa using h
    refine .word (w := ['x', '2']) (by decide) (hordinary (by decide +kernel)) ?_
    refine .separator (by decide) (by decide +kernel) (by decide) ?_
    refine .separator (by decide) (by decide +kernel) (by decide) ?_
    refine .separator (by decide) (by decide +kernel) (by decide) ?_
    refine .word (w := ['4', '0']) (by decide) (hordinary (by decide +kernel)) ?_
    exact .separator (by decide) (by decide +kernel) (by decide) hcomment
  have hplain : Plain "x2 / 40 /*\"7\"*/ + 0x1f" := by
    refine ⟨hlegible, fun hps w hw => ?_, fun hps w rest hrest => ?_⟩
    · obtain rfl := Except.ok.inj (hpieces.symm.trans hps)
      have hwhole : ∀ w ∈ [['x', '2'], ['4', '0'], ['0', 'x', '1', 'f']], HoldsWhole w → w.all Char.isDigit = true := by
        decide +kernel
      exact hwhole w (by simpa using hw)
    · obtain rfl := Except.ok.inj (hpieces.symm.trans hps)
      intro _
      simp only [List.suffix_cons_iff, List.suffix_nil, List.cons.injEq, Piece.word.injEq, reduceCtorEq, false_and, false_or,
        or_false] at hrest
      rcases hrest with ⟨rfl, rfl⟩ | ⟨rfl, rfl⟩ | ⟨rfl, rfl⟩ <;> rfl
  obtain ⟨ts', hts', hplainly⟩ := tokenize_withFractions hread
  exact (hplainly hplain).2.1.trans hts'.symm

/-- An exponent with a sign is no longer one after giving fractions. -/
theorem signed_exponent_is_cut :
    (tokenize "x / 1e-3").toOption = some [.identifier "x", .binary (.arithmetic .divide),
        .constant (.double (Double.ofDecimal false 1 (-3)))] ∧
      (tokenize (withFractions "x / 1e-3")).toOption = some [.identifier "x", .binary (.arithmetic .divide),
        .identifier "1e", .minus, .constant (.double (Double.ofInt 3))] := by
  decide +kernel

end SignalBridge.Expression
