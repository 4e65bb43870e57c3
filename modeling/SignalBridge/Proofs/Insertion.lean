import SignalBridge.Proofs.Numerals

/-! Inserted fractions. Giving fractions inserts `.0` after some digits. Wherever that is done, a text that is cut
    into pieces still is, with the same quoted texts, words, blanks and marks in the same places, and whether
    pieces join into tokens does not depend on what the words are. -/

namespace SignalBridge.Expression
variable {s t : List Char} {c : Char} {ps : List Piece}

/-- The second text is the first with `.0` after some of its digits. -/
inductive Inserted : List Char → List Char → Prop
  | nil : Inserted [] []
  | cons {c : Char} {s t : List Char} (hrest : Inserted s t) : Inserted (c :: s) (c :: t)
  | fraction {c : Char} {s t : List Char} (hdigit : c.isDigit = true) (hrest : Inserted s t) :
      Inserted (c :: s) (c :: '.' :: '0' :: t)

theorem Inserted.append (h : Inserted s t) (front : List Char) : Inserted (front ++ s) (front ++ t) := by
  induction front with
  | nil => exact h
  | cons c front ih => exact .cons ih

theorem exists_last_digit (hc : c.isDigit = true) (s : List Char) :
    ∃ front last, c :: s.takeWhile Char.isDigit = front ++ [last] ∧ last.isDigit = true := by
  refine ⟨_, _, (List.dropLast_concat_getLast (List.cons_ne_nil _ _)).symm, ?_⟩
  rcases List.mem_cons.mp (List.getLast_mem (List.cons_ne_nil c (s.takeWhile Char.isDigit))) with heq | hmem
  · rwa [heq]
  · exact List.mem_takeWhile_imp hmem

theorem inserted_addFractions (previous : Option Char) : Inserted s (addFractions previous s) := by
  fun_induction addFractions previous s with
  | case1 => exact .nil
  | case2 previous s ih =>
    have happend := Inserted.append ih ('"' :: (splitQuoted s).1)
    rwa [List.cons_append, splitQuoted_append] at happend
  | case3 previous c s hquote hnumber digits after fraction ih =>
    have hsplit : c :: digits ++ after = c :: s := congrArg (c :: ·) List.takeWhile_append_dropWhile
    by_cases hafter : after.head?.any continuesAfter = true
    · have hfraction : fraction = [] := if_pos hafter
      rw [hfraction, List.append_nil, ← hsplit]
      exact ih.append (c :: digits)
    · have hfraction : fraction = ['.', '0'] := if_neg hafter
      obtain ⟨front, last, hlast, hdigit⟩ := exists_last_digit (Bool.and_eq_true_iff.mp hnumber).1 s
      rw [hfraction, ← hsplit, hlast]
      simp only [List.append_assoc]
      exact (Inserted.fraction hdigit ih).append front
  | case4 previous c s hquote hnumber ih => exact .cons ih

theorem Inserted.head? (h : Inserted s t) : t.head? = s.head? := by
  cases h <;> rfl

/-- After a character that is no digit nothing is inserted. -/
theorem Inserted.of_cons (h : Inserted (c :: s) t) (hc : c.isDigit = false) : ∃ u, t = c :: u ∧ Inserted s u := by
  cases h with
  | cons hrest => exact ⟨_, rfl, hrest⟩
  | fraction hdigit => exact absurd hdigit (by simp [hc])

/-- Without a point among the characters nothing was inserted. -/
theorem Inserted.eq_of_notMem (h : Inserted s t) (ht : '.' ∉ t) : t = s := by
  induction h with
  | nil => rfl
  | cons _ ih => rw [ih fun hmem => ht (.tail _ hmem)]
  | fraction => simp at ht

/-! ### Pieces -/

/-- Of a quoted text the same is left over, and escapes stay as they are. -/
theorem Inserted.scanText (h : Inserted s t) :
    Alike (fun x y => Inserted x.2 y.2) (Expression.scanText s) (Expression.scanText t) := by
  fun_induction Expression.scanText s generalizing t with
  | case1 =>
    cases h
    exact .error
  | case2 s =>
    obtain ⟨u, rfl, hrest⟩ := h.of_cons (by decide)
    exact .ok hrest
  | case3 c s hc ih =>
    have hdigit : c.isDigit = false := by rcases hc with rfl | rfl <;> decide
    obtain ⟨_, rfl, htail⟩ := h.of_cons (by decide)
    obtain ⟨u, rfl, hrest⟩ := htail.of_cons hdigit
    rw [Expression.scanText, if_pos hc]
    exact (ih hrest).map fun _ _ h => h
  | case4 c s hc =>
    obtain ⟨_, rfl, htail⟩ := h.of_cons (by decide)
    cases htail <;> rw [Expression.scanText, if_neg hc] <;> exact .error
  | case5 =>
    obtain ⟨_, rfl, htail⟩ := h.of_cons (by decide)
    cases htail
    exact .error
  | case6 c s hquote hescape hlast ih =>
    have hescape := ne_backslash hescape hlast
    cases h with
    | cons hrest =>
      rw [scanText_cons hquote hescape]
      exact (ih hrest).map fun _ _ h => h
    | fraction hdigit hrest =>
      rw [scanText_cons hquote hescape, scanText_cons (by decide) (by decide), scanText_cons (by decide) (by decide)]
      exact .map_right (.map_right ((ih hrest).map fun _ _ h => h))

theorem afterComment?_cons (h : c = '*' → s.head? ≠ some '/') : afterComment? (c :: s) = afterComment? s := by
  rw [afterComment?]
  rintro _ rfl rfl
  exact h rfl rfl

/-- A comment ends with the same text left over, if it ends. -/
theorem Inserted.afterComment? (h : Inserted s t) :
    Option.Rel Inserted (Expression.afterComment? s) (Expression.afterComment? t) := by
  fun_induction Expression.afterComment? s generalizing t with
  | case1 =>
    cases h
    exact .none
  | case2 s =>
    obtain ⟨_, rfl, htail⟩ := h.of_cons (by decide)
    obtain ⟨u, rfl, hrest⟩ := htail.of_cons (by decide)
    exact .some hrest
  | case3 c s hlast ih =>
    have hstar (hc : c = '*') : s.head? ≠ some '/' := by
      intro hhead
      obtain ⟨tail, rfl⟩ := List.head?_eq_some_iff.mp hhead
      exact hlast tail hc rfl
    cases h with
    | cons hrest => rw [afterComment?_cons (hrest.head? ▸ hstar)]; exact ih hrest
    | fraction hdigit hrest =>
      have hne : c ≠ '*' := by
        rintro rfl
        exact absurd hdigit (by decide)
      rw [afterComment?_cons fun heq => absurd heq hne, afterComment?_cons fun heq => absurd heq (by decide),
        afterComment?_cons fun heq => absurd heq (by decide)]
      exact ih hrest

theorem Inserted.exists_afterComment? {rest : List Char} (h : Inserted s t)
    (hend : Expression.afterComment? s = some rest) :
    ∃ rest', Expression.afterComment? t = some rest' ∧ Inserted rest rest' := by
  have hrel := h.afterComment?
  rw [hend] at hrel
  generalize Expression.afterComment? t = end' at hrel
  cases hrel with
  | some hrest => exact ⟨_, rfl, hrest⟩

theorem Inserted.afterComment?_eq_none (h : Inserted s t) (hend : Expression.afterComment? s = none) :
    Expression.afterComment? t = none := by
  have hrel := h.afterComment?
  rw [hend] at hrel
  generalize Expression.afterComment? t = end' at hrel
  cases hrel with
  | none => rfl

theorem Inserted.nextLine (h : Inserted s t) :
    Inserted ((s.dropWhile (· != '\n')).drop 1) ((t.dropWhile (· != '\n')).drop 1) := by
  induction h with
  | nil => exact .nil
  | @cons c s t hrest ih =>
    by_cases hc : c = '\n'
    · subst hc
      exact hrest
    · simpa [List.dropWhile_cons, hc] using ih
  | @fraction c s t hdigit hrest ih =>
    have hc : c ≠ '\n' := by
      rintro rfl
      exact absurd hdigit (by decide)
    simpa [List.dropWhile_cons, hc] using ih

/-- What kind of piece it is, and which mark. -/
def Piece.outline : Piece → Piece
  | .text _ => .text ""
  | .word _ => .word []
  | .blank => .blank
  | .mark c => .mark c

theorem outline_joinPiece (p : Piece) (ps : List Piece) :
    (joinPiece p ps).map Piece.outline = joinPiece p.outline (ps.map Piece.outline) := by
  rcases ps with _ | ⟨q, ps⟩
  · cases p <;> rfl
  · cases p <;> cases q <;> rfl

theorem pieces_line : pieces ('/' :: '/' :: s) = pieces ((s.dropWhile (· != '\n')).drop 1) := by
  rw [pieces]

theorem pieces_block {rest : List Char} (h : afterComment? s = some rest) : pieces ('/' :: '*' :: s) = pieces rest := by
  rw [pieces]
  split
  next heq => rw [Option.some.inj (h.symm.trans heq)]
  next heq => exact absurd (h.symm.trans heq) (by simp)

theorem pieces_unclosed (h : afterComment? s = none) : pieces ('/' :: '*' :: s) = .error .unclosedComment := by
  rw [pieces]
  split
  next heq => exact absurd (h.symm.trans heq) (by simp)
  next => rfl

/-- Pieces of the same kinds in the same places. -/
def SameKinds (ps qs : List Piece) : Prop :=
  qs.map Piece.outline = ps.map Piece.outline

theorem SameKinds.joinPiece {p q : Piece} {qs : List Piece} (hpq : q.outline = p.outline) (h : SameKinds ps qs) :
    SameKinds (joinPiece p ps) (joinPiece q qs) := by
  rw [SameKinds, outline_joinPiece, outline_joinPiece, hpq, h]

/-- With fractions inserted, a text is cut into pieces of the same kinds, or stays one that cannot be cut. -/
theorem Inserted.pieces (h : Inserted s t) : Alike SameKinds (Expression.pieces s) (Expression.pieces t) := by
  fun_induction Expression.pieces s generalizing t with
  | case1 =>
    cases h
    rw [Expression.pieces]
    exact .ok rfl
  | case2 s text rest hscan ih =>
    obtain ⟨u, rfl, hrest⟩ := h.of_cons (by decide)
    obtain ⟨⟨text', rest'⟩, hscan', hrest'⟩ := hrest.scanText.exists_ok hscan
    rw [pieces_quoted, hscan']
    exact (ih hrest').map fun _ _ h => h.joinPiece rfl
  | case3 s e hscan =>
    obtain ⟨u, rfl, hrest⟩ := h.of_cons (by decide)
    obtain ⟨e', hscan'⟩ := hrest.scanText.exists_error hscan
    rw [pieces_quoted, hscan']
    exact .error
  | case4 s ih =>
    obtain ⟨_, rfl, htail⟩ := h.of_cons (by decide)
    obtain ⟨u, rfl, hrest⟩ := htail.of_cons (by decide)
    rw [pieces_line]
    exact ih hrest.nextLine
  | case5 s rest hend ih =>
    obtain ⟨_, rfl, htail⟩ := h.of_cons (by decide)
    obtain ⟨u, rfl, hrest⟩ := htail.of_cons (by decide)
    obtain ⟨rest', hend', hrest'⟩ := hrest.exists_afterComment? hend
    rw [pieces_block hend']
    exact ih hrest'
  | case6 s hend =>
    obtain ⟨_, rfl, htail⟩ := h.of_cons (by decide)
    obtain ⟨u, rfl, hrest⟩ := htail.of_cons (by decide)
    rw [pieces_unclosed (hrest.afterComment?_eq_none hend)]
    exact .error
  | case7 c s hquote hline hblock ih =>
    cases h with
    | @cons _ _ u hrest =>
      have hcomment (hc : c = '/') : u.head? ≠ some '/' ∧ u.head? ≠ some '*' := by
        rw [hrest.head?]
        constructor <;> intro hhead
        · obtain ⟨tail, rfl⟩ := List.head?_eq_some_iff.mp hhead
          exact hline tail hc rfl
        · obtain ⟨tail, rfl⟩ := List.head?_eq_some_iff.mp hhead
          exact hblock tail hc rfl
      rw [pieces_cons hquote hcomment]
      exact (ih hrest).map fun _ _ h => h.joinPiece rfl
    | @fraction _ _ u hdigit hrest =>
      -- The digit and its fraction are one word, which joins with what follows as the digit did.
      have hword : ∀ d ∈ [c, '.', '0'], pieceOf d = .word [d] ∧ d ≠ '"' := by
        simp only [List.forall_mem_cons]
        exact ⟨pieceOf_of_numeral (.inl hdigit), pieceOf_of_numeral (.inr rfl), pieceOf_of_numeral (.inl (by decide)),
          List.forall_mem_nil _⟩
      have hsame : (Piece.word [c, '.', '0']).outline = (pieceOf c).outline := by
        rw [pieceOf_of_continuesBefore (continuesBefore_of_isDigit hdigit)]
        rfl
      rw [show c :: '.' :: '0' :: u = [c, '.', '0'] ++ u from rfl, pieces_word hword (by simp)]
      exact (ih hrest).map fun _ _ h => h.joinPiece hsame

/-! ### Tokens -/

theorem isOk_map {ε α β : Type} (f : α → β) (x : Except ε α) : (x.map f).isOk = x.isOk := by
  cases x <;> rfl

/-- A sign joins with no word after it. -/
theorem isOk_joinPieces_sign {w : List Char} (hc : c = '+' ∨ c = '-') :
    (joinPieces (.mark c :: .word w :: ps)).isOk = (joinPieces (.word w :: ps)).isOk := by
  have hand : c ≠ '&' ∧ c ≠ '|' := by rcases hc with rfl | rfl <;> decide
  rw [joinPieces_mark (fun heq => absurd heq hand.1) (fun heq => absurd heq hand.2)]
  rcases hc with rfl | rfl <;> exact isOk_map _ _

/-- A word makes pieces no less and no more fit to be joined. -/
theorem isOk_joinPieces_word (w : List Char) (ps : List Piece) :
    (joinPieces (.word w :: ps)).isOk = (joinPieces ps).isOk := by
  rw [joinPieces]
  split
  · exact isOk_map _ _
  split
  next x hsplit =>
    -- Where the number is not taken as a whole, its sign and its second word are joined by themselves.
    obtain ⟨c, v, qs, rfl, hsign, -⟩ := readSplitDouble?_eq_some.mp hsplit
    rw [isOk_map, isOk_joinPieces_sign hsign]
    exact (isOk_joinPieces_word v qs).symm
  · exact isOk_map _ _
termination_by ps.length

/-- Marks stay marks, and nothing else becomes one. -/
def KeepsMarks (f : Piece → Piece) : Prop :=
  ∀ p c, f p = .mark c ↔ p = .mark c

section
variable {f : Piece → Piece} (hf : KeepsMarks f)
include hf

theorem KeepsMarks.head? {d : Char} : (ps.map f).head? = some (.mark d) ↔ ps.head? = some (.mark d) := by
  rcases ps with _ | ⟨p, ps⟩
  · exact Iff.rfl
  · simp [hf p d]

theorem KeepsMarks.pairToken? (c : Char) (ps : List Piece) : pairToken? c (ps.map f) = pairToken? c ps := by
  simp only [pairToken?_eq, hf.head?]

theorem KeepsMarks.head?_ne {d : Char} (h : ∀ tail, ps = .mark d :: tail → c = d → False) (hc : c = d) :
    (ps.map f).head? ≠ some (.mark d) := by
  intro hhead
  obtain ⟨tail, rfl⟩ := List.head?_eq_some_iff.mp (hf.head?.mp hhead)
  exact h tail rfl hc

theorem KeepsMarks.ne_equals (h : ∀ tail, ps = .mark '=' :: tail → False) (tail : List Piece) :
    ps.map f ≠ .mark '=' :: tail :=
  fun heq => hf.head?_ne (c := '=') (fun tail heq _ => h tail heq) rfl (congrArg List.head? heq)

end

theorem keepsMarks_outline : KeepsMarks Piece.outline := by
  intro p c
  cases p <;> simp [Piece.outline]

/-- Whether pieces join into tokens is told by their kinds. -/
theorem isOk_joinPieces_outline (ps : List Piece) : (joinPieces (ps.map Piece.outline)).isOk = (joinPieces ps).isOk := by
  fun_induction joinPieces ps with
  | case1 => rw [List.map_nil, joinPieces]
  | case2 s ps ih => rw [List.map_cons, Piece.outline, joinPieces, isOk_map, isOk_map, ih]
  | case3 ps ih => rw [List.map_cons, Piece.outline, joinPieces, ih]
  | case4 w ps c hconstant ih => rw [List.map_cons, Piece.outline, isOk_joinPieces_word, isOk_map, ih]
  | case5 w ps hconstant x hsplit ih =>
    obtain ⟨c, v, qs, rfl, hsign, -⟩ := readSplitDouble?_eq_some.mp hsplit
    simp only [List.map_cons, Piece.outline]
    rw [isOk_joinPieces_word, isOk_joinPieces_sign hsign, isOk_joinPieces_word, isOk_map]
    exact ih
  | case6 w ps hconstant hsplit ih => rw [List.map_cons, Piece.outline, isOk_joinPieces_word, isOk_map, ih]
  | case7 ps ih | case8 ps ih =>
    simp only [List.map_cons, Piece.outline]
    rw [joinPieces, isOk_map, isOk_map, ih]
  | case9 ps hequals ih | case10 ps hequals ih =>
    simp only [List.map_cons, Piece.outline]
    rw [joinPieces, isOk_map, isOk_map, ih]
    exact keepsMarks_outline.ne_equals hequals
  | case11 c ps _ _ hand hor t hpair ih =>
    rw [List.map_cons, Piece.outline, joinPieces_mark (keepsMarks_outline.head?_ne hand) (keepsMarks_outline.head?_ne hor),
      keepsMarks_outline.pairToken?, hpair, ← List.map_drop]
    exact (isOk_map _ _).trans (ih.trans (isOk_map _ _).symm)
  | case12 c ps _ _ hand hor hpair t hmark ih =>
    rw [List.map_cons, Piece.outline, joinPieces_mark (keepsMarks_outline.head?_ne hand) (keepsMarks_outline.head?_ne hor),
      keepsMarks_outline.pairToken?, hpair, hmark]
    exact (isOk_map _ _).trans (ih.trans (isOk_map _ _).symm)
  | case13 c ps _ _ hand hor hpair hmark =>
    rw [List.map_cons, Piece.outline, joinPieces_mark (keepsMarks_outline.head?_ne hand) (keepsMarks_outline.head?_ne hor),
      keepsMarks_outline.pairToken?, hpair, hmark]
    rfl

/-- Giving fractions to whole numbers neither makes nor mends a text that cannot be cut into tokens. -/
theorem tokenize_withFractions_alike (source : String) :
    Alike (fun _ _ => True) (tokenize source) (tokenize (withFractions source)) := by
  rw [tokenize, tokenize, withFractions, String.toList_ofList]
  refine (inserted_addFractions none).pieces.bind fun ps qs hkinds => .of_isOk ?_
  rw [← isOk_joinPieces_outline, ← hkinds, isOk_joinPieces_outline]

/-- An expression that is cut into tokens still is with fractions given to its whole numbers. -/
theorem exists_tokenize_withFractions {source : String} {ts : List Token} (h : tokenize source = .ok ts) :
    ∃ ts', tokenize (withFractions source) = .ok ts' := by
  obtain ⟨ts', hts', -⟩ := (tokenize_withFractions_alike source).exists_ok h
  exact ⟨ts', hts'⟩

end SignalBridge.Expression
