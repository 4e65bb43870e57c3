import SignalBridge.Proofs.Rereading
import SignalBridge.Proofs.TrueDivision

/-! Expressions that do not divide. A `/` in a quoted text or a comment makes no division, but it is looked for in the
    text as it stands, so that it makes doubles of whole numbers and of a whole `x` all the same. What such a text gives
    is what it says only where there is no whole number to make a double of. -/

namespace SignalBridge.Expression
variable {source : String} {ts : List Token} {ps : List Piece} {t : Token} {c : Char} {input : Scalar}

/-- Every `/` of a text that can be cut stands in a quoted text or a comment. -/
def Undivided (source : String) : Prop :=
  ∀ ps, pieces source.toList = .ok ps → .mark '/' ∉ ps

/-! ### Divisions -/

def Token.isDivision : Token → Bool
  | binary (.arithmetic .divide) | updateAssign (.arithmetic .divide) => true
  | _ => false

theorem slash_of_markToken? (h : markToken? c = some t) (ht : t.isDivision = true) : c = '/' := by
  unfold markToken? at h
  split at h
  case h_8 =>
    obtain ⟨b, hb, rfl⟩ := Option.map_eq_some_iff.mp h
    unfold markBinary? at hb
    split at hb <;> cases hb <;> first | rfl | cases ht
  all_goals cases h; cases ht

theorem slash_of_markEqualsToken? (h : markEqualsToken? c = some t) (ht : t.isDivision = true) : c = '/' := by
  unfold markEqualsToken? at h
  split at h
  case h_5 =>
    split at h
    · obtain ⟨b, hb, rfl⟩ := Option.map_eq_some_iff.mp h
      unfold markBinary? at hb
      split at hb <;> cases hb <;> first | rfl | cases ht
    · cases h
  all_goals cases h; cases ht

/-- Without a mark for it there is no division among the tokens. -/
theorem not_isDivision_of_undivided (hundivided : Undivided source) (hread : tokenize source = .ok ts) :
    ∀ t ∈ ts, t.isDivision = false := by
  obtain ⟨ps, hps, hts⟩ := bind_eq_ok.mp hread
  intro t ht
  by_contra hdivision
  have hdivision : t.isDivision = true := by simpa using hdivision
  cases readFrom_of_mem hts t ht with
  | pair hmark hpair => exact hundivided ps hps (slash_of_markEqualsToken? hpair hdivision ▸ hmark)
  | mark hmark htoken => exact hundivided ps hps (slash_of_markToken? htoken hdivision ▸ hmark)
  | connective hb => rcases hb with rfl | rfl <;> cases hdivision
  | connectiveAssign hb => rcases hb with rfl | rfl <;> cases hdivision
  | _ => cases hdivision

/-! ### Values of tokens -/

/-- The variable as it comes in. -/
def plainNames (input : Scalar) (name : String) : Option Value :=
  if name = variableName then some (.ofScalar input) else none

/-- The value of an expression as it is written, with `x` bound to the input as it comes in. -/
def plainly (source : String) (input : Scalar) : Except Fault Scalar := do
  evaluateTokens (plainNames input) (← tokenize source)

theorem boundValue_of_not_integer {divides : Bool} (hinput : ∀ i, input ≠ .integer i) :
    boundValue divides input = .ofScalar input := by
  cases input with
  | integer i => exact absurd rfl (hinput i)
  | _ => rfl

theorem evaluate_of_not_mem (h : '/' ∉ source.toList) : (ofSource source).evaluate input = plainly source input := by
  have hcontains : source.toList.contains '/' = false := by simpa using h
  have hbound : boundValue false input = .ofScalar input := by cases input <;> rfl
  simp only [evaluate, ofSource, hcontains, hbound, Bool.false_eq_true, if_false]
  exact bind_parse source

/-! ### Names that are read -/

section
variable {bound bound' : String → Option Value}

theorem Tree.evaluateAll_congr {reversed : List Tree} (h : ∀ t ∈ reversed, t.evaluate bound = t.evaluate bound') :
    evaluateAll bound reversed = evaluateAll bound' reversed := by
  induction reversed with
  | nil => rfl
  | cons t reversed ih =>
    obtain ⟨ht, hrest⟩ := List.forall_mem_cons.mp h
    rw [evaluateAll, evaluateAll, ht, ih hrest]

/-- The value of a tree depends on no names but those that it reads. -/
theorem Tree.evaluate_congr {tree : Tree} (h : tree.All fun o => ∀ name, o = .read name → bound name = bound' name) :
    tree.evaluate bound = tree.evaluate bound' := by
  induction h with
  | @node o reversed ho _ ih =>
    have happly (arguments : List Value) : o.apply bound arguments = o.apply bound' arguments := by
      cases o with
      | read name => rw [Operation.apply, Operation.apply, ho name rfl]
      | _ => rfl
    rw [evaluate, evaluate, evaluateAll_congr ih]
    exact congrArg (evaluateAll bound' reversed >>= ·) (funext happly)

theorem identifier_of_read {previous next : Option Token} {name : String}
    (h : Tree.operationOf previous next t = .read name) : t = .identifier name := by
  cases t with
  | identifier n =>
    unfold Tree.operationOf at h
    dsimp only at h
    split at h
    · cases h
    split at h
    · cases h
    · rw [Operation.read.inj h]
  | minus =>
    unfold Tree.operationOf at h
    dsimp only at h
    split at h <;> cases h
  | _ => cases h

theorem evaluateTokens_congr (h : ∀ name, .identifier name ∈ ts → bound name = bound' name) :
    evaluateTokens bound ts = evaluateTokens bound' ts := by
  unfold evaluateTokens
  cases htree : Tree.ofTokens ts with
  | error _ => rfl
  | ok tree =>
    have hall : tree.All fun o => ∀ name, o = .read name → bound name = bound' name :=
      Tree.all_ofTokens nofun (fun t ht _ _ name hread => h name (identifier_of_read hread ▸ ht)) htree
    exact congrArg (· >>= scalarResult) (Tree.evaluate_congr hall)

end

theorem evaluateTokens_boundNames (h : ∀ i, input = .integer i → .identifier variableName ∉ ts) :
    evaluateTokens (boundNames input) ts = evaluateTokens (plainNames input) ts := by
  refine evaluateTokens_congr fun name hname => ?_
  unfold boundNames plainNames
  split
  next hx => rw [boundValue_of_not_integer fun i hi => h i hi (hx ▸ hname)]
  next => rfl

/-! ### Fractions -/

/-- No word of a text that can be cut holds a whole number. -/
def WithoutWhole (source : String) : Prop :=
  ∀ ps, pieces source.toList = .ok ps → ∀ w, .word w ∈ ps → ¬HoldsWhole w

/-- Where words are set apart and hold no whole number, giving fractions changes no token. -/
theorem tokenize_withoutWhole (hlegible : Legible false source.toList) (hwhole : WithoutWhole source)
    (hread : tokenize source = .ok ts) : tokenize (withFractions source) = .ok ts := by
  obtain ⟨ps, hps, hts⟩ := bind_eq_ok.mp hread
  have hkept : ∀ p ∈ ps, p.mapWord (addFractions none) = id p := by
    intro p hp
    cases p with
    | word w =>
      have hquote : '"' ∉ w := fun hmem => ((ordinary_of_pieces hps hp).2 _ hmem).2 rfl
      exact congrArg Piece.word (addFractions_of_not_holdsWhole hquote (hwhole ps hps w hp))
    | _ => rfl
  rwa [hlegible.tokenize_fractioned hps, List.map_congr_left hkept, List.map_id]

/-! ### Undivided texts -/

/-- A text whose every `/` stands in a quoted text or a comment has no division among its tokens, and without `/` it
    gives what it says. With `/` it fails at least where it has no tokens, and gives what it says if it holds no whole
    number and does not read a whole `x`. Else decimal digits and a whole `x` are doubles: a plain text gives what its
    tokens say then. -/
theorem evaluate_of_undivided (hundivided : Undivided source) (input : Scalar) :
    (∀ ts, tokenize source = .ok ts → ∀ t ∈ ts, t.isDivision = false) ∧
    ('/' ∉ source.toList → (ofSource source).evaluate input = plainly source input) ∧
    (∀ f, tokenize source = .error f → ∃ f', (ofSource source).evaluate input = .error f') ∧
    (∀ ts, tokenize source = .ok ts → Legible false source.toList → WithoutWhole source →
      (∀ i, input = .integer i → .identifier variableName ∉ ts) →
        (ofSource source).evaluate input = plainly source input) ∧
    ∀ ts, tokenize source = .ok ts → '/' ∈ source.toList → Plain source →
      ∃ ts', tokenizeWith readFractioned? source = .ok ts' ∧ List.Forall₂ Token.Fractioned ts ts' ∧
        (ofSource source).evaluate input = evaluateTokens (boundNames input) ts' := by
  refine ⟨fun ts => not_isDivision_of_undivided hundivided, evaluate_of_not_mem, fun f hread => ?_,
    fun ts hread hlegible hwhole hx => ?_, fun ts hread hmem hplain => ?_⟩
  · by_cases hmem : '/' ∈ source.toList
    · obtain ⟨f', hf'⟩ := (tokenize_withFractions_alike source).exists_error hread
      exact ⟨f', by rw [evaluate_of_mem hmem, hf']; rfl⟩
    · exact ⟨f, by rw [evaluate_of_not_mem hmem, plainly, hread]; rfl⟩
  · by_cases hmem : '/' ∈ source.toList
    · rw [evaluate_of_mem hmem, tokenize_withoutWhole hlegible hwhole hread, plainly, hread]
      exact evaluateTokens_boundNames hx
    · exact evaluate_of_not_mem hmem
  · obtain ⟨ts', hts', hread', hfractioned⟩ := hplain.exists_fractioned hread
    exact ⟨ts', hts', hfractioned, by rw [evaluate_of_mem hmem, hread']; rfl⟩

theorem undivided_of_computed (h : (pieces source.toList).toOption.any (fun ps => !ps.contains (.mark '/')) = true) :
    Undivided source := by
  intro ps hps hmem
  rw [hps] at h
  have hcontains : ps.contains (.mark '/') = true := List.contains_iff_mem.mpr hmem
  rw [Except.toOption, Option.any_some, hcontains] at h
  cases h

/-- An operation on `x` and another word, before a comment. -/
theorem legible_commented {w body : List Char} (hc : c ≠ '"' ∧ ¬Ordinary c ∧ c ≠ '/')
    (hw : w ≠ [] ∧ w.all (fun d => decide (Ordinary d)) = true) (hbody : '\n' ∉ body) :
    Legible false ('x' :: ' ' :: c :: ' ' :: (w ++ ' ' :: '/' :: '/' :: body)) := by
  have hblank {afterWord : Bool} {s : List Char} (hs : Legible false s) : Legible afterWord (' ' :: s) :=
    .separator (by decide) (by decide +kernel) (fun h => absurd h (by decide)) hs
  have hx : ∀ d ∈ ['x'], Ordinary d := List.forall_mem_singleton.mpr (by decide +kernel)
  have hordinary : ∀ d ∈ w, Ordinary d := by simpa using hw.2
  refine .word (w := ['x']) (by decide) hx (hblank ?_)
  refine .separator hc.1 hc.2.1 (fun h => absurd h hc.2.2) (hblank ?_)
  exact .word hw.1 hordinary (hblank (.lastLine hbody))

theorem plain_commented : Plain "x + 1 // half" := by
  have hpieces : (pieces "x + 1 // half".toList).toOption =
      some [.word ['x'], .blank, .mark '+', .blank, .word ['1'], .blank] := by
    decide +kernel
  have hlegible : Legible false "x + 1 // half".toList :=
    legible_commented (w := ['1']) (by decide +kernel) ⟨by decide, by decide +kernel⟩ (by decide)
  have hwhole : ∀ w ∈ [['x'], ['1']], HoldsWhole w → w.all Char.isDigit = true := by decide +kernel
  rw [toOption_eq_some] at hpieces
  refine ⟨hlegible, fun hps w hw => ?_, fun hps w rest hrest => ?_⟩
  · obtain rfl := Except.ok.inj (hpieces.symm.trans hps)
    exact hwhole w (by simpa using hw)
  · obtain rfl := Except.ok.inj (hpieces.symm.trans hps)
    intro _
    simp only [List.suffix_cons_iff, List.suffix_nil, List.cons.injEq, Piece.word.injEq, reduceCtorEq, false_and,
      false_or, or_false] at hrest
    rcases hrest with ⟨rfl, rfl⟩ | ⟨rfl, rfl⟩ <;> rfl

/-- Without whole numbers the text gives what it says, and the whole number of the other one is a double. -/
theorem evaluate_of_undivided_commented :
    (ofSource "x > 1.5 // km/h").evaluate (.double 2) = plainly "x > 1.5 // km/h" (.double 2) ∧
      (ofSource "x + 1 // half").evaluate (.integer 5) = evaluateTokens (boundNames (.integer 5))
        [.identifier "x", .binary (.arithmetic .add), .constant (.double (Double.ofInt 1))] := by
  have hundivided : Undivided "x > 1.5 // km/h" := undivided_of_computed (by decide +kernel)
  have hundivided' : Undivided "x + 1 // half" := undivided_of_computed (by decide +kernel)
  have hread : (tokenize "x > 1.5 // km/h").toOption.isSome = true := by decide +kernel
  have hread' : (tokenize "x + 1 // half").toOption.isSome = true := by decide +kernel
  have hpieces : (pieces "x > 1.5 // km/h".toList).toOption =
      some [.word ['x'], .blank, .mark '>', .blank, .word ['1', '.', '5'], .blank] := by
    decide +kernel
  have hfractioned : (tokenizeWith readFractioned? "x + 1 // half").toOption =
      some [.identifier "x", .binary (.arithmetic .add), .constant (.double (Double.ofInt 1))] := by
    decide +kernel
  obtain ⟨ts, hread⟩ := Option.isSome_iff_exists.mp hread
  obtain ⟨ts', hread'⟩ := Option.isSome_iff_exists.mp hread'
  rw [toOption_eq_some] at hread hread' hpieces hfractioned
  obtain ⟨-, -, -, hplainly, -⟩ := evaluate_of_undivided hundivided (.double 2)
  obtain ⟨-, -, -, -, hfractions⟩ := evaluate_of_undivided hundivided' (.integer 5)
  constructor
  · have hlegible : Legible false "x > 1.5 // km/h".toList :=
      legible_commented (w := ['1', '.', '5']) (by decide +kernel) ⟨by decide, by decide +kernel⟩ (by decide)
    have hwords : ∀ w ∈ [['x'], ['1', '.', '5']], ¬HoldsWhole w := by decide +kernel
    refine hplainly ts hread hlegible (fun ps hps w hw => ?_) nofun
    obtain rfl := Except.ok.inj (hpieces.symm.trans hps)
    exact hwords w (by simpa using hw)
  · obtain ⟨us, hus, -, hvalue⟩ := hfractions ts' hread' (by decide) plain_commented
    rw [hvalue, Except.ok.inj (hus.symm.trans hfractioned)]

/-- A text whose every `/` stands in a quoted text or a comment, and that says an integer but does not give it. -/
def LosesInteger (source : String) (input : Scalar) (i : Int64) : Prop :=
  Undivided source ∧ plainly source input = .ok (.integer i) ∧ (ofSource source).evaluate input ≠ .ok (.integer i)

theorem losesInteger_of_computed {i : Int64}
    (h : (pieces source.toList).toOption.any (fun ps => !ps.contains (.mark '/')) = true ∧
      (match plainly source input with
        | .ok (.integer j) => j == i
        | _ => false) = true ∧
      (match (ofSource source).evaluate input with
        | .ok (.integer _) => false
        | _ => true) = true) : LosesInteger source input i := by
  obtain ⟨hundivided, hplain, hvalue⟩ := h
  refine ⟨undivided_of_computed hundivided, ?_, fun heq => ?_⟩
  · split at hplain
    next j heq => rw [heq, beq_iff_eq.mp hplain]
    · cases hplain
  · rw [heq] at hvalue
    cases hvalue

/-- A sum becomes a double for a `/` in a comment or a quoted text, and an operation on integers fails for one. -/
theorem slash_loses_integers :
    LosesInteger "x + 1 // half" (.integer 5) 6 ∧ LosesInteger "x + len(\"km/h\")" (.integer 5) 9 ∧
      LosesInteger "bitand(x, 3) // low bits" (.integer 5) 1 :=
  ⟨losesInteger_of_computed (by decide +kernel), losesInteger_of_computed (by decide +kernel),
    losesInteger_of_computed (by decide +kernel)⟩

end SignalBridge.Expression
