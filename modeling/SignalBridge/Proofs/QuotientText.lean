import SignalBridge.Proofs.Legible
import SignalBridge.Proofs.Placing

/-! Quotients. In parentheses a legible text that does not end inside of a comment is cut into pieces as it is by
    itself, and they join into the same tokens. So the quotient of two such texts, with fractions given to its whole
    numbers, is read as the quotient of what the two are read as. -/

namespace SignalBridge.Expression
variable {s s' rest a b : List Char} {ps qs : List Piece} {ts left right : List Token} {afterWord : Bool}

/-! ### Pieces before a parenthesis -/

/-- A parenthesis behind the text is not lost in a comment. -/
def EndsOutside (s : List Char) : Prop :=
  ∀ ps, pieces s = .ok ps → pieces (s ++ [')']) ≠ .ok ps

theorem endsOutside_of_computed (h : (pieces (s ++ [')'])).toOption ≠ (pieces s).toOption) : EndsOutside s :=
  fun _ hread hread' => h (by rw [hread, hread'])

theorem EndsOutside.of_eq (h : EndsOutside s') (hs : pieces s' = pieces s)
    (hclosed : pieces (s' ++ [')']) = pieces (s ++ [')'])) : EndsOutside s :=
  fun ps hread hread' => h ps (hs.trans hread) (hclosed.trans hread')

theorem EndsOutside.of_map {f : List Piece → List Piece} (h : EndsOutside s') (hs : pieces s' = (pieces s).map f)
    (hclosed : pieces (s' ++ [')']) = (pieces (s ++ [')'])).map f) : EndsOutside s := by
  intro ps hread hread'
  exact h (f ps) (by rw [hs, hread]; rfl) (by rw [hclosed, hread']; rfl)

theorem joinPiece_append (p : Piece) (ps rest : List Piece) :
    joinPiece p (ps ++ .mark ')' :: rest) = joinPiece p ps ++ .mark ')' :: rest := by
  cases ps with
  | nil => cases p <;> rfl
  | cons q ps => cases p <;> cases q <;> rfl

theorem map_joinPiece (p : Piece) (ps : List Piece) (x : Except Fault (List Piece)) :
    (x.map (ps ++ .mark ')' :: ·)).map (joinPiece p) = x.map (joinPiece p ps ++ .mark ')' :: ·) := by
  cases x with
  | error _ => rfl
  | ok rest => exact congrArg Except.ok (joinPiece_append p ps rest)

/-- Before a closing parenthesis the text is cut into the same pieces, and it stays legible if the rest is. -/
structure BeforeClosing (afterWord : Bool) (s : List Char) (ps : List Piece) : Prop where
  pieces (rest : List Char) : pieces (s ++ ')' :: rest) = (pieces rest).map (ps ++ .mark ')' :: ·)
  legible {rest : List Char} (h : Legible false rest) : Legible afterWord (s ++ ')' :: rest)

theorem head?_append_closing {d : Char} (hs : s.head? ≠ some d) (hd : ')' ≠ d) : (s ++ ')' :: rest).head? ≠ some d := by
  cases s with
  | nil => simpa using hd
  | cons => exact hs

/-- What is legible and does not end inside of a comment is read before a closing parenthesis as by itself. -/
theorem Legible.beforeClosing (h : Legible afterWord s) (hends : EndsOutside s) (hread : pieces s = .ok ps) :
    BeforeClosing afterWord s ps := by
  -- What a text adds in front of its rest it adds with and without the parenthesis, so the rest ends outside as well.
  induction h generalizing ps with
  | nil =>
    rw [pieces] at hread
    obtain rfl := Except.ok.inj hread
    have hclosing {rest : List Char} (hc : ')' = '/') : rest.head? ≠ some '/' ∧ rest.head? ≠ some '*' :=
      absurd hc (by decide)
    exact ⟨fun rest => pieces_separator (by decide) (by decide +kernel) hclosing,
      .separator (by decide) (by decide +kernel) hclosing⟩
  | @quoted _ s hrest ih =>
    rw [pieces_quoted] at hread
    obtain ⟨⟨text, more⟩, hscan, hread⟩ := bind_eq_ok.mp hread
    obtain ⟨qs, hqs, rfl⟩ := map_eq_ok.mp hread
    obtain ⟨hcloses, rfl⟩ := closes_of_scanText hscan
    have hquoted (rest : List Char) : pieces ('"' :: (s ++ rest)) =
        (pieces ((splitQuoted s).2 ++ rest)).map (joinPiece (.text (String.ofList text))) := by
      rw [pieces_quoted, scanText_append hscan]
      rfl
    have hmore : EndsOutside (splitQuoted s).2 := hends.of_map (by simpa using hquoted []) (hquoted _)
    obtain ⟨hpieces, hlegible⟩ := ih hmore hqs
    refine ⟨fun rest => ?_, fun hrest => .quoted ?_⟩
    · rw [List.cons_append, hquoted, hpieces, map_joinPiece]
    · exact splitQuoted_append_of_closes hcloses _ ▸ hlegible hrest
  | @line _ body more hpaired hline hrest ih =>
    have hskip (rest : List Char) : pieces ('/' :: '/' :: (body ++ '\n' :: more ++ rest)) = pieces (more ++ rest) := by
      rw [List.append_assoc, pieces_line, List.cons_append, nextLine_append hline]
    have hmore : EndsOutside more := hends.of_eq (by simpa using hskip []) (hskip _)
    obtain ⟨hpieces, hlegible⟩ := ih hmore (by simpa [hread] using (hskip []).symm)
    refine ⟨fun rest => (hskip _).trans (hpieces rest), fun hrest => ?_⟩
    have hline := Legible.line hpaired hline (hlegible hrest)
    simpa using hline
  | @lastLine _ body hline =>
    -- The comment would take the parenthesis in.
    have hline' : '\n' ∉ body ++ [')'] := by simpa using hline
    rw [pieces_line, nextLine_last hline] at hread
    refine absurd ?_ (hends ps (by rw [pieces_line, nextLine_last hline, hread]))
    rw [List.cons_append, List.cons_append, pieces_line, nextLine_last hline', hread]
  | @block _ body more hpaired hend hrest ih =>
    have hend' (rest : List Char) : afterComment? (body ++ '*' :: '/' :: (more ++ rest)) = some (more ++ rest) := by
      have hsame : Inserted body body := by simpa using Inserted.nil.append body
      exact hsame.afterComment?_append hend _
    have hskip (rest : List Char) :
        pieces ('/' :: '*' :: (body ++ '*' :: '/' :: more ++ rest)) = pieces (more ++ rest) := by
      rw [List.append_assoc, List.cons_append, List.cons_append, pieces_block (hend' rest)]
    have hmore : EndsOutside more := hends.of_eq (by simpa using hskip []) (hskip _)
    obtain ⟨hpieces, hlegible⟩ := ih hmore (by simpa [hread] using (hskip []).symm)
    refine ⟨fun rest => (hskip _).trans (hpieces rest), fun hrest => ?_⟩
    have hblock := Legible.block hpaired (hend' _) (hlegible hrest)
    simpa using hblock
  | @separator _ c s hquote hseparates hcomment hrest ih =>
    have hcomment' (rest : List Char) (hc : c = '/') :
        (s ++ ')' :: rest).head? ≠ some '/' ∧ (s ++ ')' :: rest).head? ≠ some '*' :=
      ⟨head?_append_closing (hcomment hc).1 (by decide), head?_append_closing (hcomment hc).2 (by decide)⟩
    have hmore : EndsOutside s := hends.of_map (pieces_separator hquote hseparates hcomment)
      (pieces_separator hquote hseparates (hcomment' []))
    rw [pieces_separator hquote hseparates hcomment] at hread
    obtain ⟨qs, hqs, rfl⟩ := map_eq_ok.mp hread
    obtain ⟨hpieces, hlegible⟩ := ih hmore hqs
    refine ⟨fun rest => ?_, fun hrest => .separator hquote hseparates (hcomment' _) (hlegible hrest)⟩
    rw [List.cons_append, pieces_cons hquote (hcomment' rest), hpieces, map_joinPiece, joinPiece_separator hquote hseparates]
  | @word w s hne hordinary hrest ih =>
    have hword (rest : List Char) : pieces (w ++ s ++ rest) = (pieces (s ++ rest)).map (joinPiece (.word w)) := by
      rw [List.append_assoc, pieces_word hordinary hne]
    have hmore : EndsOutside s := hends.of_map (pieces_word hordinary hne) (hword _)
    rw [pieces_word hordinary hne] at hread
    obtain ⟨qs, hqs, rfl⟩ := map_eq_ok.mp hread
    obtain ⟨hpieces, hlegible⟩ := ih hmore hqs
    refine ⟨fun rest => by rw [hword, hpieces, map_joinPiece], fun hrest => ?_⟩
    exact List.append_assoc w s _ ▸ .word hne hordinary (hlegible hrest)

/-- A text that can be put in parentheses: it is legible, and it does not end inside of a comment. -/
structure Enclosable (s : List Char) : Prop where
  legible : Legible false s
  ends : EndsOutside s

theorem Enclosable.beforeClosing (h : Enclosable s) (hread : pieces s = .ok ps) : BeforeClosing false s ps :=
  h.legible.beforeClosing h.ends hread

theorem Uncommented.pieces_closing (h : Uncommented s) (hread : pieces s = .ok ps) :
    pieces (s ++ [')']) = .ok (ps ++ [.mark ')']) := by
  induction h generalizing ps with
  | nil =>
    rw [pieces] at hread
    obtain rfl := Except.ok.inj hread
    rw [List.nil_append, pieces_cons (by decide) (by decide), pieces]
    rfl
  | @quoted s hclosed hrest ih =>
    rw [pieces_quoted] at hread
    obtain ⟨x, hscan, hread⟩ := bind_eq_ok.mp hread
    obtain ⟨qs, hqs, rfl⟩ := map_eq_ok.mp hread
    rw [← (closes_of_scanText hscan).2] at hqs
    rw [List.cons_append, pieces_quoted, scanText_append hscan]
    change (pieces (x.2 ++ [')'])).map (joinPiece _) = _
    rw [← (closes_of_scanText hscan).2, ih hqs]
    exact congrArg Except.ok (joinPiece_append _ qs [])
  | @cons c s hquote hcomment hrest ih =>
    rw [pieces_cons hquote hcomment] at hread
    obtain ⟨qs, hqs, rfl⟩ := map_eq_ok.mp hread
    have hcomment' (hc : c = '/') : (s ++ [')']).head? ≠ some '/' ∧ (s ++ [')']).head? ≠ some '*' :=
      ⟨head?_append_closing (hcomment hc).1 (by decide), head?_append_closing (hcomment hc).2 (by decide)⟩
    rw [List.cons_append, pieces_cons hquote hcomment', ih hqs]
    exact congrArg Except.ok (joinPiece_append _ qs [])

theorem Uncommented.enclosable (h : Uncommented s) : Enclosable s where
  legible := h.legible
  ends := fun _ hread hread' => by simpa using (h.pieces_closing hread).symm.trans hread'

/-! ### Quotients -/

/-- The quotient of two texts in parentheses. -/
def quotientText (a b : List Char) : List Char :=
  '(' :: (a ++ ')' :: ' ' :: '/' :: ' ' :: '(' :: (b ++ [')']))

def quotientPieces (ps qs : List Piece) : List Piece :=
  .mark '(' :: (ps ++ .mark ')' :: .blank :: .mark '/' :: .blank :: .mark '(' :: (qs ++ [.mark ')']))

theorem Enclosable.quotient (ha : Enclosable a) (hb : Enclosable b) (hps : pieces a = .ok ps) (hqs : pieces b = .ok qs) :
    Legible false (quotientText a b) ∧ pieces (quotientText a b) = .ok (quotientPieces ps qs) := by
  have hleft := ha.beforeClosing hps
  have hright := hb.beforeClosing hqs
  have hopening : '(' ≠ '"' ∧ ¬Ordinary '(' ∧ pieceOf '(' = .mark '(' := by decide +kernel
  have hblank : ' ' ≠ '"' ∧ ¬Ordinary ' ' ∧ pieceOf ' ' = .blank := by decide +kernel
  have hslash : '/' ≠ '"' ∧ ¬Ordinary '/' ∧ pieceOf '/' = .mark '/' := by decide +kernel
  have hmore {c : Char} {s : List Char} {p : Piece} {rs : List Piece} (hc : c ≠ '"' ∧ ¬Ordinary c ∧ pieceOf c = p)
      (hcomment : c ≠ '/' ∨ s.head? = some ' ') (hs : Legible false s ∧ pieces s = .ok rs) :
      Legible false (c :: s) ∧ pieces (c :: s) = .ok (p :: rs) := by
    have hcomment (heq : c = '/') : s.head? ≠ some '/' ∧ s.head? ≠ some '*' := by
      rw [hcomment.resolve_left fun hne => hne heq]
      decide
    refine ⟨.separator hc.1 hc.2.1 hcomment hs.1, ?_⟩
    rw [pieces_separator hc.1 hc.2.1 hcomment, hs.2, hc.2.2]
    rfl
  have hclosing : Legible false (b ++ [')']) ∧ pieces (b ++ [')']) = .ok (qs ++ [.mark ')']) := by
    refine ⟨hright.legible .nil, ?_⟩
    rw [hright.pieces, pieces]
    rfl
  have hdivisor := hmore hblank (.inl (by decide)) (hmore hopening (.inl (by decide)) hclosing)
  have hdivided := hmore hblank (.inl (by decide)) (hmore hslash (.inr rfl) hdivisor)
  refine hmore hopening (.inl (by decide)) ⟨hleft.legible hdivided.1, ?_⟩
  rw [hleft.pieces, hdivided.2]
  rfl

theorem joinPieces_opening (ps : List Piece) : joinPieces (.mark '(' :: ps) = (joinPieces ps).map (.opening :: ·) := by
  have hpair : pairToken? '(' ps = none := by
    rw [pairToken?_eq]
    exact ite_id none
  rw [joinPieces_mark (fun heq => absurd heq (by decide)) (fun heq => absurd heq (by decide)), hpair]
  rfl

theorem joinPieces_divided (ps : List Piece) : joinPieces (.blank :: .mark '/' :: .blank :: ps) =
    (joinPieces ps).map (.binary (.arithmetic .divide) :: ·) := by
  have hblank : joinPieces (.blank :: ps) = joinPieces ps := by rw [joinPieces]
  rw [joinPieces, joinPieces_mark (fun heq => absurd heq (by decide)) (fun heq => absurd heq (by decide)), ← hblank]
  rfl

theorem joinPieces_quotientPieces (hleft : joinPieces ps = .ok left) (hright : joinPieces qs = .ok right) :
    joinPieces (quotientPieces ps qs) = .ok (Tree.quotientTokens left right) := by
  have hnil : joinPieces [] = .ok [] := by rw [joinPieces]
  rw [quotientPieces, joinPieces_opening, joinPieces_append hleft, joinPieces_divided, joinPieces_opening,
    joinPieces_append hright, hnil]
  simp [Except.map, Tree.quotientTokens]

theorem map_quotientPieces (f : List Char → List Char) :
    (quotientPieces ps qs).map (Piece.mapWord f) = quotientPieces (ps.map (Piece.mapWord f)) (qs.map (Piece.mapWord f)) := by
  simp [quotientPieces, Piece.mapWord]

/-- A legible text that is read with fractions is cut into pieces, and its tokens are made of these with the words given
    their fractions. -/
theorem Legible.exists_pieces {source : String} (h : Legible false source.toList)
    (hread : tokenize (withFractions source) = .ok ts) :
    ∃ ps, pieces source.toList = .ok ps ∧ joinPieces (ps.map (Piece.mapWord (addFractions none))) = .ok ts := by
  obtain ⟨qs, hqs, -⟩ := bind_eq_ok.mp hread
  rw [withFractions, String.toList_ofList] at hqs
  obtain ⟨ps, hps, -⟩ := (inserted_addFractions none).pieces.symm.exists_ok hqs
  exact ⟨ps, hps, (h.tokenize_fractioned hps).symm.trans hread⟩

/-- The quotient of two texts is read as the quotient of what they are read as. -/
theorem tokenize_quotient {a b : String} (ha : Enclosable a.toList) (hb : Enclosable b.toList)
    (hleft : tokenize (withFractions a) = .ok left) (hright : tokenize (withFractions b) = .ok right) :
    tokenize (withFractions ("(" ++ a ++ ") / (" ++ b ++ ")")) = .ok (Tree.quotientTokens left right) := by
  obtain ⟨ps, hps, hleft⟩ := ha.legible.exists_pieces hleft
  obtain ⟨qs, hqs, hright⟩ := hb.legible.exists_pieces hright
  obtain ⟨hlegible, hpieces⟩ := ha.quotient hb hps hqs
  have hsource : ("(" ++ a ++ ") / (" ++ b ++ ")").toList = quotientText a.toList b.toList := by simp [quotientText]
  rw [← hsource] at hlegible hpieces
  rw [hlegible.tokenize_fractioned hpieces, map_quotientPieces]
  exact joinPieces_quotientPieces hleft hright

end SignalBridge.Expression
