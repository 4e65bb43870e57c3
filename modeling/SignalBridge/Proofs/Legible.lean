import SignalBridge.Proofs.Insertion

/-! Legible texts. Where words have a mark, a blank or a quoted text between them and comments leave no quote open,
    giving fractions to the whole numbers of a text gives them to each of its words alone: the pieces stay the same
    otherwise. -/

namespace SignalBridge.Expression
variable {s rest body body' w : List Char} {c : Char} {ps : List Piece} {previous : Option Char} {afterWord : Bool}

/-- A character of words. -/
def Ordinary (c : Char) : Prop :=
  pieceOf c = .word [c] ∧ c ≠ '"'

instance (c : Char) : Decidable (Ordinary c) :=
  inferInstanceAs (Decidable (_ ∧ _))

/-- Quoted texts, comments that leave no quote open, marks, blanks and words, where no two words have only comments
    between them. The flag tells that a word comes before the text. -/
inductive Legible : Bool → List Char → Prop
  | nil {afterWord : Bool} : Legible afterWord []
  | quoted {afterWord : Bool} {s : List Char} (hrest : Legible false (splitQuoted s).2) : Legible afterWord ('"' :: s)
  | line {afterWord : Bool} {body rest : List Char} (hpaired : Paired body) (hline : '\n' ∉ body)
      (hrest : Legible afterWord rest) : Legible afterWord ('/' :: '/' :: (body ++ '\n' :: rest))
  | lastLine {afterWord : Bool} {body : List Char} (hline : '\n' ∉ body) : Legible afterWord ('/' :: '/' :: body)
  | block {afterWord : Bool} {body rest : List Char} (hpaired : Paired body)
      (hend : afterComment? (body ++ '*' :: '/' :: rest) = some rest) (hrest : Legible afterWord rest) :
      Legible afterWord ('/' :: '*' :: (body ++ '*' :: '/' :: rest))
  | separator {afterWord : Bool} {c : Char} {s : List Char} (hquote : c ≠ '"') (hseparates : ¬Ordinary c)
      (hcomment : c = '/' → s.head? ≠ some '/' ∧ s.head? ≠ some '*') (hrest : Legible false s) :
      Legible afterWord (c :: s)
  | word {w s : List Char} (hne : w ≠ []) (hordinary : ∀ c ∈ w, Ordinary c) (hrest : Legible true s) :
      Legible false (w ++ s)

/-- All quotes are closed, and no comment begins outside of quotes. -/
inductive Uncommented : List Char → Prop
  | nil : Uncommented []
  | quoted {s : List Char} (hclosed : closes s = true) (hrest : Uncommented (splitQuoted s).2) : Uncommented ('"' :: s)
  | cons {c : Char} {s : List Char} (hquote : c ≠ '"')
    (hcomment : c = '/' → s.head? ≠ some '/' ∧ s.head? ≠ some '*') (hrest : Uncommented s) : Uncommented (c :: s)

/-- Characters that neither quote nor begin a comment may stand before a text without comments. -/
theorem Uncommented.append {front : List Char} (hquote : '"' ∉ front) (hslash : '/' ∉ front) (h : Uncommented s) :
    Uncommented (front ++ s) := by
  induction front with
  | nil => exact h
  | cons c front ih =>
    rw [List.mem_cons, not_or] at hquote hslash
    exact .cons (Ne.symm hquote.1) (fun heq => absurd heq.symm hslash.1) (ih hquote.2 hslash.2)

theorem Uncommented.of_plain (hquote : '"' ∉ s) (hslash : '/' ∉ s) : Uncommented s :=
  s.append_nil ▸ Uncommented.append hquote hslash .nil

/-! ### Characters -/

theorem ordinary_of_continuesBefore (h : continuesBefore c = true) : Ordinary c := by
  refine ⟨pieceOf_of_continuesBefore h, ?_⟩
  rintro rfl
  exact absurd h (by decide +kernel)

theorem pieceOf_separator (hquote : c ≠ '"') (h : ¬Ordinary c) : pieceOf c = .mark c ∨ pieceOf c = .blank := by
  unfold pieceOf
  split
  · exact .inl rfl
  split
  · exact .inr rfl
  next hmark hblank => exact absurd ⟨by rw [pieceOf, if_neg hmark, if_neg hblank], hquote⟩ h

theorem joinPiece_separator (hquote : c ≠ '"') (h : ¬Ordinary c) (ps : List Piece) :
    joinPiece (pieceOf c) ps = pieceOf c :: ps := by
  rcases pieceOf_separator hquote h with heq | heq <;> rw [heq] <;> rfl

theorem not_continues_of_separator (h : ¬Ordinary c) : continuesBefore c = false ∧ continuesAfter c = false := by
  have hbefore : continuesBefore c = false := by
    rw [← Bool.not_eq_true]
    exact fun hc => h (ordinary_of_continuesBefore hc)
  refine ⟨hbefore, ?_⟩
  rw [← Bool.not_eq_true]
  exact fun hc => absurd (continuesBefore_of_continuesAfter hc) (by simp [hbefore])

theorem Legible.head_not_continues (h : Legible true s) : s.head?.any continuesAfter = false := by
  have hquote : continuesAfter '"' = false := by decide
  have hslash : continuesAfter '/' = false := by decide
  cases h with
  | nil => rfl
  | quoted => exact hquote
  | line | lastLine | block => exact hslash
  | separator _ hseparates => exact (not_continues_of_separator hseparates).2

theorem Inserted.mem {t : List Char} {d : Char} (h : Inserted s t) (hd : d ∈ t) : d ∈ s ∨ d = '.' ∨ d = '0' := by
  induction h with
  | nil => cases hd
  | cons _ ih => grind
  | fraction _ _ ih => grind

theorem ordinary_of_mem_addFractions (hordinary : ∀ c ∈ w, Ordinary c) (hc : c ∈ addFractions previous w) :
    Ordinary c := by
  rcases (inserted_addFractions previous).mem hc with hmem | rfl | rfl
  · exact hordinary c hmem
  · exact ordinary_of_continuesBefore (by decide +kernel)
  · exact ordinary_of_continuesBefore (by decide +kernel)

/-- A character that continues neither a name nor a number starts its rest afresh. -/
theorem addFractions_apart (hquote : c ≠ '"') (hc : continuesBefore c = false) :
    addFractions previous (c :: s) = c :: addFractions none s := by
  have hdigit : c.isDigit = false := by
    rw [← Bool.not_eq_true]
    exact fun hdigit => absurd (continuesBefore_of_isDigit hdigit) (by simp [hc])
  have hprevious : (some c).any continuesBefore = false := hc
  rw [addFractions_of_not_isDigit hquote hdigit, addFractions_eq_none (.inl hprevious)]

/-- Without comments, with all quotes closed, every text is legible. -/
theorem Uncommented.legible (h : Uncommented s) : Legible false s := by
  -- What the induction carries is the word that the text begins with, so that a character before it can join it.
  suffices hsplit : ∃ w rest, s = w ++ rest ∧ (∀ c ∈ w, Ordinary c) ∧ Legible true rest ∧ Legible false s from
    hsplit.choose_spec.choose_spec.2.2.2
  induction h with
  | nil => exact ⟨[], [], rfl, nofun, .nil, .nil⟩
  | @quoted s hclosed hrest ih =>
    obtain ⟨-, -, -, -, -, hlegible⟩ := ih
    exact ⟨[], '"' :: s, rfl, nofun, .quoted hlegible, .quoted hlegible⟩
  | @cons c s hquote hcomment hrest ih =>
    obtain ⟨w, rest, heq, hordinary, hafter, hlegible⟩ := ih
    by_cases hc : Ordinary c
    · have hword : ∀ d ∈ c :: w, Ordinary d := List.forall_mem_cons.mpr ⟨hc, hordinary⟩
      have hsplit : c :: s = c :: w ++ rest := by rw [heq, List.cons_append]
      exact ⟨c :: w, rest, hsplit, hword, hafter, hsplit ▸ .word (List.cons_ne_nil c w) hword hafter⟩
    · exact ⟨[], c :: s, rfl, nofun, .separator hquote hc hcomment hlegible, .separator hquote hc hcomment hlegible⟩

/-! ### Comments -/

section
variable (hline : '\n' ∉ body)
include hline

theorem bne_newline : ∀ c ∈ body, (c != '\n') = true :=
  fun _ hc => bne_iff_ne.mpr fun heq => hline (heq ▸ hc)

theorem nextLine_append : ((body ++ '\n' :: rest).dropWhile (· != '\n')).drop 1 = rest := by
  rw [List.dropWhile_append_of_pos (bne_newline hline)]
  rfl

theorem nextLine_last : (body.dropWhile (· != '\n')).drop 1 = [] := by
  rw [List.dropWhile_eq_nil_iff.mpr (bne_newline hline)]
  rfl

theorem newline_not_mem_addFractions : '\n' ∉ addFractions previous body := by
  intro hmem
  rcases (inserted_addFractions previous).mem hmem with hmem | heq | heq
  · exact hline hmem
  · exact absurd heq (by decide)
  · exact absurd heq (by decide)

end

/-- Fractions inserted into a comment do not move its end. -/
theorem Inserted.afterComment?_append (h : Inserted body body')
    (hend : Expression.afterComment? (body ++ '*' :: '/' :: rest) = some rest) (rest' : List Char) :
    Expression.afterComment? (body' ++ '*' :: '/' :: rest') = some rest' := by
  induction h with
  | nil => rfl
  | @cons c s t hrest ih =>
    have hstar (hc : c = '*') : (s ++ '*' :: '/' :: rest).head? ≠ some '/' := by
      intro hhead
      obtain ⟨tail, htail⟩ := List.head?_eq_some_iff.mp hhead
      rw [List.cons_append, hc, htail] at hend
      obtain rfl := Option.some.inj hend
      have hlength := congrArg List.length htail
      simp only [List.length_append, List.length_cons] at hlength
      omega
    have hstar' (hc : c = '*') : (t ++ '*' :: '/' :: rest').head? ≠ some '/' := by
      have hsame : (t ++ '*' :: '/' :: rest').head? = (s ++ '*' :: '/' :: rest).head? := by
        rw [List.head?_append, List.head?_append, hrest.head?]
        rfl
      exact hsame ▸ hstar hc
    rw [List.cons_append, afterComment?_cons hstar] at hend
    rw [List.cons_append, afterComment?_cons hstar', ih hend]
  | @fraction c s t hdigit hrest ih =>
    have hne : c ≠ '*' := by
      rintro rfl
      exact absurd hdigit (by decide)
    rw [List.cons_append, afterComment?_cons fun heq => absurd heq hne] at hend
    simp only [List.cons_append]
    rw [afterComment?_cons fun heq => absurd heq hne, afterComment?_cons fun heq => absurd heq (by decide),
      afterComment?_cons fun heq => absurd heq (by decide), ih hend]

/-! ### Pieces -/

/-- The piece with other characters in place of a word. -/
def Piece.mapWord (f : List Char → List Char) : Piece → Piece
  | .text t => .text t
  | .word w => .word (f w)
  | .blank => .blank
  | .mark c => .mark c

theorem keepsMarks_mapWord (f : List Char → List Char) : KeepsMarks (Piece.mapWord f) := by
  intro p c
  cases p <;> simp [Piece.mapWord]

theorem pieces_separator (hquote : c ≠ '"') (hseparates : ¬Ordinary c)
    (hcomment : c = '/' → s.head? ≠ some '/' ∧ s.head? ≠ some '*') :
    pieces (c :: s) = (pieces s).map (pieceOf c :: ·) := by
  rw [pieces_cons hquote hcomment]
  exact congrArg (Except.map · (pieces s)) (funext (joinPiece_separator hquote hseparates))

/-- Past comments, what comes after a word is none. -/
theorem Legible.head?_ne_word (h : Legible afterWord s) (hafter : afterWord = true) (hread : pieces s = .ok ps)
    (w : List Char) : ps.head? ≠ some (.word w) := by
  induction h generalizing ps with
  | nil =>
    rw [pieces] at hread
    obtain rfl := Except.ok.inj hread
    simp
  | quoted hrest ih =>
    rw [pieces_quoted] at hread
    obtain ⟨x, hscan, hread⟩ := bind_eq_ok.mp hread
    obtain ⟨qs, hqs, rfl⟩ := map_eq_ok.mp hread
    simp [joinPiece]
  | line hpaired hline hrest ih =>
    rw [pieces_line, nextLine_append hline] at hread
    exact ih hafter hread
  | lastLine hline =>
    rw [pieces_line, nextLine_last hline, pieces] at hread
    obtain rfl := Except.ok.inj hread
    simp
  | block hpaired hend hrest ih =>
    rw [pieces_block hend] at hread
    exact ih hafter hread
  | separator hquote hseparates hcomment hrest ih =>
    rw [pieces_separator hquote hseparates hcomment] at hread
    obtain ⟨qs, hqs, rfl⟩ := map_eq_ok.mp hread
    rcases pieceOf_separator hquote hseparates with heq | heq <;> simp [heq]
  | word hne hordinary hrest ih => cases hafter

theorem pieces_before_word (hne : w ≠ []) (hordinary : ∀ c ∈ w, Ordinary c) (hread : pieces s = .ok ps)
    (hhead : ∀ v, ps.head? ≠ some (.word v)) : pieces (w ++ s) = .ok (.word w :: ps) := by
  rw [pieces_word hordinary hne, hread]
  rcases ps with _ | ⟨p, ps⟩
  · rfl
  · cases p with
    | word v => exact absurd rfl (hhead v)
    | _ => rfl

/-- The words of a legible text are given their fractions each by itself. -/
theorem Legible.pieces_addFractions (h : Legible afterWord s) (hread : pieces s = .ok ps) :
    pieces (addFractions none s) = .ok (ps.map (Piece.mapWord (addFractions none))) := by
  induction h generalizing ps with
  | nil =>
    rw [pieces] at hread
    obtain rfl := Except.ok.inj hread
    rw [addFractions, pieces]
    rfl
  | @quoted _ s hrest ih =>
    rw [pieces_quoted] at hread
    obtain ⟨⟨text, rest⟩, hscan, hread⟩ := bind_eq_ok.mp hread
    obtain ⟨qs, hqs, rfl⟩ := map_eq_ok.mp hread
    have hrest' := (closes_of_scanText hscan).2
    have hnone : addFractions (some '"') (splitQuoted s).2 = addFractions none (splitQuoted s).2 :=
      addFractions_eq_none (.inl (by decide))
    rw [addFractions_quoted, List.cons_append, pieces_quoted, scanText_splitQuoted hscan, hnone]
    change (pieces _).map _ = _
    rw [ih (hrest'.symm ▸ hqs)]
    rfl
  | @line _ body rest hpaired hline hrest ih =>
    have hnewline : ('\n' :: rest).head?.any continuesAfter = false := show continuesAfter '\n' = false by decide
    rw [pieces_line, nextLine_append hline] at hread
    rw [addFractions_apart (by decide) (by decide), addFractions_apart (by decide) (by decide),
      addFractions_append hnewline hpaired, addFractions_apart (by decide) (by decide), pieces_line,
      nextLine_append (newline_not_mem_addFractions hline), ih hread]
  | @lastLine _ body hline =>
    rw [pieces_line, nextLine_last hline, pieces] at hread
    obtain rfl := Except.ok.inj hread
    rw [addFractions_apart (by decide) (by decide), addFractions_apart (by decide) (by decide), pieces_line,
      nextLine_last (newline_not_mem_addFractions hline), pieces]
    rfl
  | @block _ body rest hpaired hend hrest ih =>
    have hstar : ('*' :: '/' :: rest).head?.any continuesAfter = false := show continuesAfter '*' = false by decide
    rw [pieces_block hend] at hread
    have hend' := (inserted_addFractions none).afterComment?_append hend (addFractions none rest)
    rw [addFractions_apart (by decide) (by decide), addFractions_apart (by decide) (by decide),
      addFractions_append hstar hpaired, addFractions_apart (by decide) (by decide),
      addFractions_apart (by decide) (by decide), pieces_block hend', ih hread]
  | @separator _ c s hquote hseparates hcomment hrest ih =>
    rw [pieces_separator hquote hseparates hcomment] at hread
    obtain ⟨qs, hqs, rfl⟩ := map_eq_ok.mp hread
    have hsame : (pieceOf c).mapWord (addFractions none) = pieceOf c := by
      rcases pieceOf_separator hquote hseparates with heq | heq <;> rw [heq] <;> rfl
    rw [addFractions_apart hquote (not_continues_of_separator hseparates).1,
      pieces_separator hquote hseparates (head?_addFractions.symm ▸ hcomment), ih hqs]
    rw [List.map_cons, hsame]
    rfl
  | @word w s hne hordinary hrest ih =>
    -- No word begins right after this one, so both are cut, and given their fractions, apart from each other.
    have hquote : '"' ∉ w := fun hmem => (hordinary _ hmem).2 rfl
    obtain ⟨qs, hqs⟩ : ∃ qs, pieces s = .ok qs := by
      rw [pieces_word hordinary hne] at hread
      exact (map_eq_ok.mp hread).imp fun _ h => h.1
    rw [pieces_before_word hne hordinary hqs (hrest.head?_ne_word rfl hqs)] at hread
    obtain rfl := Except.ok.inj hread
    have hne' : addFractions none w ≠ [] := fun heq =>
      hne (List.head?_eq_none_iff.mp (head?_addFractions.symm.trans (congrArg List.head? heq)))
    have hhead (v : List Char) : (qs.map (Piece.mapWord (addFractions none))).head? ≠ some (.word v) := by
      have hhead := hrest.head?_ne_word rfl hqs
      rcases qs with _ | ⟨p, qs⟩
      · simp
      · cases p with
        | word u => exact absurd rfl (hhead u)
        | _ => simp [Piece.mapWord]
    rw [addFractions_append hrest.head_not_continues (.of_plain hquote)]
    exact pieces_before_word hne' (fun c hc => ordinary_of_mem_addFractions hordinary hc) (ih hqs) hhead

theorem Legible.tokenize_fractioned {source : String} (h : Legible false source.toList)
    (hread : pieces source.toList = .ok ps) :
    tokenize (withFractions source) = joinPieces (ps.map (Piece.mapWord (addFractions none))) := by
  rw [tokenize, withFractions, String.toList_ofList, h.pieces_addFractions hread]
  rfl

end SignalBridge.Expression
