import SignalBridge.Expression
import SignalBridge.Proofs.IntegerFree
import SignalBridge.Proofs.QuotientText
import SignalBridge.Proofs.Rereading

/-! True division. Whole numbers in an expression that divides are read as doubles, and so is a whole `x`. Where
    no other integer comes in, no value on the way is an integer, and every division is one of doubles.
    Integers do come in by other ways: as hexadecimal numbers, as results of functions, and as numbers that
    keep their form because a quote in a comment before them hides them. If they come in on both sides of a
    division, its result is cut to an integer. -/

namespace SignalBridge.Expression
variable {input v : Scalar} {t : Token} {ts left right : List Token}

/-- The token can bring an integer into an expression that divides. -/
def Token.bringsInteger : Token → Bool
  | constant (.integer _) => true
  | identifier name => integerFunctions.contains name
  | _ => false

theorem bringsInteger_of_operationOf {previous next : Option Token}
    (h : (Tree.operationOf previous next t).bringsInteger = true) : t.bringsInteger = true := by
  cases t with
  | constant c =>
    cases c with
    | integer _ => rfl
    | _ => cases h
  | identifier name =>
    unfold Tree.operationOf at h
    dsimp only at h
    split at h
    · cases h
    split at h
    · exact h
    · cases h
  | minus =>
    unfold Tree.operationOf at h
    dsimp only at h
    split at h <;> cases h
  | _ => cases h

/-- What brings an integer in is read from a token. -/
theorem exists_bringsInteger {tree : Tree} (hread : Tree.ofTokens ts = .ok tree) (h : tree.BringsInteger) :
    ∃ t ∈ ts, t.bringsInteger = true := by
  obtain ⟨s, hs, hbrings⟩ := h
  have hall : tree.All fun o => o.bringsInteger = true → ∃ t ∈ ts, t.bringsInteger = true :=
    Tree.all_ofTokens nofun (fun t ht _ _ h => ⟨t, ht, bringsInteger_of_operationOf h⟩) hread
  exact hall.within hs hbrings

theorem boundValue_integerFree (input : Scalar) : (boundValue true input).IntegerFree := by
  cases input with
  | integer i => exact .double _
  | boolean b => exact .boolean b
  | double x => exact .double x
  | text s => exact .text s

/-- The variable of an expression that divides. -/
def boundNames (input : Scalar) (name : String) : Option Value :=
  if name = variableName then some (boundValue true input) else none

theorem boundNames_integerFree {name : String} {w : Value} (h : boundNames input name = some w) : w.IntegerFree := by
  unfold boundNames at h
  split at h
  · exact Option.some.inj h ▸ boundValue_integerFree input
  · cases h

theorem bringsInteger_of_boundNames {tree : Tree} {i : Int64}
    (h : tree.evaluate (boundNames input) = .ok (.integer i)) : tree.BringsInteger :=
  Tree.bringsInteger_of_evaluate (fun _ _ => boundNames_integerFree) h

/-- The value of an expression with these tokens. -/
def evaluateTokens (bound : String → Option Value) (ts : List Token) : Except Fault Scalar := do
  let tree ← Tree.ofTokens ts
  scalarResult (← tree.evaluate bound)

theorem bind_parse {f : Tree → Except Fault Scalar} (source : String) :
    Tree.parse source >>= f = tokenize source >>= fun ts => Tree.ofTokens ts >>= f := by
  rw [Tree.parse]
  cases tokenize source <;> rfl

theorem tree_of_mem {source : String} (h : '/' ∈ source.toList) :
    (ofSource source).tree = Tree.parse (withFractions source) := by
  have hcontains : source.toList.contains '/' = true := by simpa using h
  simp only [ofSource, hcontains, if_true]

/-- An expression that divides is read with fractions, and its variable is a double. -/
theorem evaluate_of_mem {source : String} (h : '/' ∈ source.toList) : (ofSource source).evaluate input =
    tokenize (withFractions source) >>= evaluateTokens (boundNames input) := by
  have hdivides : (ofSource source).divides = true := by simpa [ofSource] using h
  rw [evaluate, tree_of_mem h, hdivides]
  exact bind_parse (withFractions source)

theorem evaluate_eq_ok {source : String} (hdivides : '/' ∈ source.toList) :
    (ofSource source).evaluate input = .ok v ↔ ∃ ts tree w, tokenize (withFractions source) = .ok ts ∧
      Tree.ofTokens ts = .ok tree ∧ tree.evaluate (boundNames input) = .ok w ∧ scalarResult w = .ok v := by
  rw [evaluate_of_mem hdivides]
  constructor
  · intro h
    obtain ⟨ts, hts, h⟩ := bind_eq_ok.mp h
    obtain ⟨tree, htree, h⟩ := bind_eq_ok.mp h
    obtain ⟨w, hw, hv⟩ := bind_eq_ok.mp h
    exact ⟨ts, tree, w, hts, htree, hw, hv⟩
  · rintro ⟨ts, tree, w, hts, htree, hw, hv⟩
    exact bind_eq_ok.mpr ⟨ts, hts, bind_eq_ok.mpr ⟨tree, htree, bind_eq_ok.mpr ⟨w, hw, hv⟩⟩⟩

theorem ofScalar_of_scalarResult {w : Value} (h : scalarResult w = .ok v) : w = .ofScalar v := by
  cases w with
  | double x =>
    simp only [scalarResult, Value.toScalar?] at h
    split at h
    · exact Except.ok.inj h ▸ rfl
    · cases h
  | tuple _ | empty => cases h
  | text _ | integer _ | boolean _ => exact Except.ok.inj h ▸ rfl

/-! ### Quotients -/

section
variable {bound : String → Option Value} {l r : Tree} {w : Value}

theorem evaluate_group (t : Tree) : (Tree.node .group [t]).evaluate bound = t.evaluate bound := by
  simp only [Tree.evaluate, Tree.evaluateAll]
  cases t.evaluate bound <;> rfl

/-- The division of one tree by another. -/
def Tree.division (l r : Tree) : Tree :=
  .node (.binary (.arithmetic .divide)) [r, l]

theorem evaluate_binary {b : Binary} (h : (Tree.node (.binary b) [r, l]).evaluate bound = .ok w) :
    ∃ u v, l.evaluate bound = .ok u ∧ r.evaluate bound = .ok v ∧ b.apply u v = .ok w := by
  simp only [Tree.evaluate, Tree.evaluateAll] at h
  obtain ⟨arguments, harguments, happly⟩ := bind_eq_ok.mp h
  obtain ⟨us, hus, harguments⟩ := bind_eq_ok.mp harguments
  obtain ⟨_, hnil, hus⟩ := bind_eq_ok.mp hus
  obtain rfl := Except.ok.inj hnil
  obtain ⟨u, hu, hus⟩ := bind_eq_ok.mp hus
  obtain rfl := Except.ok.inj hus
  obtain ⟨v, hv, harguments⟩ := bind_eq_ok.mp harguments
  obtain rfl := Except.ok.inj harguments
  exact ⟨u, v, hu, hv, happly⟩

/-- The value of a division is a double unless both operands have integers as values. -/
theorem evaluate_division (h : (Tree.node .group [.division l r]).evaluate bound = .ok w) :
    (∃ x, w = .double x) ∨ ∃ i j, l.evaluate bound = .ok (.integer i) ∧ r.evaluate bound = .ok (.integer j) := by
  rw [evaluate_group] at h
  obtain ⟨u, v, hu, hv, happly⟩ := evaluate_binary h
  obtain ⟨_, -, happly⟩ := bind_eq_ok.mp happly
  obtain ⟨_, -, happly⟩ := bind_eq_ok.mp happly
  rcases Value.double_of_onNumbers happly with hdouble | ⟨i, j, rfl, rfl⟩
  · exact .inl hdouble
  · exact .inr ⟨i, j, hu, hv⟩

end

/-! ### Integers that are kept -/

/-- A hexadecimal number is among the words of the text. -/
def holdsHexadecimal (source : String) : Bool :=
  (pieces source.toList).toOption.any (·.any Piece.isHexadecimal)

/-- An expression with these tokens has integers though its whole numbers are given a fraction: it writes
    hexadecimal numbers, or it names functions that give integers. -/
def KeepsIntegers (source : String) (ts : List Token) : Prop :=
  holdsHexadecimal source = true ∨ ∃ name ∈ integerFunctions, .identifier name ∈ ts

instance (source : String) (ts : List Token) : Decidable (KeepsIntegers source ts) :=
  inferInstanceAs (Decidable (_ ∨ _))

/-- Wherever an integer is divided by an integer in the tree, both operands hold what brings integers in, and the text
    keeps integers. -/
def CutsOnlyKept (bound : String → Option Value) (source : String) (ts : List Token) (tree : Tree) : Prop :=
  ∀ l r i j, (Tree.division l r).Within tree → l.evaluate bound = .ok (.integer i) → r.evaluate bound = .ok (.integer j) →
    l.BringsInteger ∧ r.BringsInteger ∧ KeepsIntegers source ts

section
variable {source : String} {tree : Tree} (hlegible : Legible false source.toList)
  (hread : tokenize (withFractions source) = .ok ts)
include hlegible hread

/-- An integer among the tokens is written in the text as a hexadecimal number: decimal digits are given a fraction. -/
theorem holdsHexadecimal_of_integer {i : Int64} (hi : .constant (.integer i) ∈ ts) : holdsHexadecimal source = true := by
  obtain ⟨ps, hps, hts⟩ := hlegible.exists_pieces hread
  obtain ⟨w', hw', hinteger⟩ := exists_word_of_integer hts hi
  obtain ⟨p, hp, heq⟩ := List.mem_map.mp hw'
  cases p with
  | word w =>
    obtain rfl := Piece.word.inj heq
    have hpoint : '.' ∉ addFractions none w := by
      intro hmem
      rw [readInteger?_of_point hmem] at hinteger
      cases hinteger
    have hkept : addFractions none w = w := (inserted_addFractions none).eq_of_notMem hpoint
    rw [hkept] at hinteger
    rcases isHexadecimal_or_digits hinteger with hhexadecimal | ⟨hne, hdigits⟩
    · rw [holdsHexadecimal, hps]
      exact List.any_eq_true.mpr ⟨_, hp, hhexadecimal⟩
    · rw [addFractions_of_digits hne hdigits] at hpoint
      simp at hpoint
  | _ => cases heq

theorem keepsIntegers_of_bringsInteger (htree : Tree.ofTokens ts = .ok tree) (h : tree.BringsInteger) :
    KeepsIntegers source ts := by
  obtain ⟨t, ht, hbrings⟩ := exists_bringsInteger htree h
  unfold Token.bringsInteger at hbrings
  split at hbrings
  next i => exact .inl (holdsHexadecimal_of_integer hlegible hread ht)
  next name => exact .inr ⟨name, List.contains_iff_mem.mp hbrings, ht⟩
  · cases hbrings

theorem cutsOnlyKept (htree : Tree.ofTokens ts = .ok tree) : CutsOnlyKept (boundNames input) source ts tree := by
  intro l r i j hdivision hi hj
  have hl : l.BringsInteger := bringsInteger_of_boundNames hi
  have hwithin : l.Within (Tree.division l r) := .child (by simp) .self
  exact ⟨hl, bringsInteger_of_boundNames hj,
    keepsIntegers_of_bringsInteger hlegible hread htree (hl.mono (hwithin.trans hdivision))⟩

end

/-- The quotient of two expressions is a double, unless both keep integers. A division inside of one of them is one of
    integers only if both of its operands hold what brings integers in, and then this expression keeps integers. -/
theorem quotient_is_double {a b : String} {l r : Tree} (ha : Enclosable a.toList) (hb : Enclosable b.toList)
    (hleft : tokenize (withFractions a) = .ok left) (hl : Tree.ofTokens left = .ok l)
    (hright : tokenize (withFractions b) = .ok right) (hr : Tree.ofTokens right = .ok r)
    (h : (ofSource ("(" ++ a ++ ") / (" ++ b ++ ")")).evaluate input = .ok v) :
    ((∃ x, v = .double x) ∨ KeepsIntegers a left ∧ KeepsIntegers b right) ∧
      (ofSource ("(" ++ a ++ ") / (" ++ b ++ ")")).tree = .ok (.node .group [.division l r]) ∧
      CutsOnlyKept (boundNames input) a left l ∧ CutsOnlyKept (boundNames input) b right r := by
  have hdivides : '/' ∈ ("(" ++ a ++ ") / (" ++ b ++ ")").toList := by simp
  have hread := tokenize_quotient ha hb hleft hright
  have htree := Tree.ofTokens_quotientTokens hl hr
  refine ⟨?_, ?_, cutsOnlyKept ha.legible hleft hl, cutsOnlyKept hb.legible hright hr⟩
  · obtain ⟨ts, tree, w, hread', htree', hw, hv⟩ := (evaluate_eq_ok hdivides).mp h
    obtain rfl := Except.ok.inj (hread.symm.trans hread')
    obtain rfl := Except.ok.inj (htree.symm.trans htree')
    rcases evaluate_division hw with ⟨x, rfl⟩ | ⟨i, j, hi, hj⟩
    · cases v with
      | double y => exact .inl ⟨y, rfl⟩
      | _ => cases ofScalar_of_scalarResult hv
    · exact .inr ⟨keepsIntegers_of_bringsInteger ha.legible hleft hl (bringsInteger_of_boundNames hi),
        keepsIntegers_of_bringsInteger hb.legible hright hr (bringsInteger_of_boundNames hj)⟩
  · rw [tree_of_mem hdivides, Tree.parse, hread]
    exact htree

theorem enclosable_halved : Enclosable "/*\"0x7\"*/ x / 2".toList := by
  have hdivided : Uncommented " / 2".toList :=
    show Uncommented (' ' :: '/' :: " 2".toList) from
      .cons (by decide) (by decide) (.cons (by decide) (by decide) (.of_plain (by decide) (by decide)))
  have hrest : Uncommented (" x".toList ++ " / 2".toList) := hdivided.append (by decide) (by decide)
  have hlegible : Legible false ('/' :: '*' :: ("\"0x7\"".toList ++ '*' :: '/' :: (" x".toList ++ " / 2".toList))) :=
    .block (.quoted rfl .nil) rfl hrest.legible
  exact ⟨hlegible, endsOutside_of_computed (by decide +kernel)⟩

theorem enclosable_len : Enclosable "len(\"0x\")".toList := by
  have hquoted : Uncommented "\"0x\")".toList := .quoted rfl (.of_plain (by decide) (by decide))
  have hcall : Uncommented ("len(".toList ++ "\"0x\")".toList) := hquoted.append (by decide) (by decide)
  exact hcall.enclosable

/-- Only the divisor keeps integers: a quoted text and a comment hold no hexadecimal numbers. The division in the
    dividend is one of doubles. -/
theorem quotient_is_double_mixed :
    let source := "(" ++ "/*\"0x7\"*/ x / 2" ++ ") / (" ++ "len(\"0x\")" ++ ")"
    ∃ x l r, (ofSource source).evaluate (.integer 4) = .ok (.double x) ∧
      (ofSource source).tree = .ok (.node .group [.division l r]) ∧
      ∀ p q i j, (Tree.division p q).Within l → p.evaluate (boundNames (.integer 4)) = .ok (.integer i) →
        q.evaluate (boundNames (.integer 4)) ≠ .ok (.integer j) := by
  intro source
  have hleft : (tokenize (withFractions "/*\"0x7\"*/ x / 2")).toOption =
      some [.identifier "x", .binary (.arithmetic .divide), .constant (.double 2)] := by
    decide +kernel
  have hright : (tokenize (withFractions "len(\"0x\")")).toOption =
      some [.identifier "len", .opening, .constant (.text "0x"), .closing] := by
    decide +kernel
  have hl : (Tree.ofTokens [.identifier "x", .binary (.arithmetic .divide), .constant (.double 2)]).toOption.isSome := by
    decide +kernel
  have hr : (Tree.ofTokens [.identifier "len", .opening, .constant (.text "0x"), .closing]).toOption.isSome := by
    decide +kernel
  have h : ((ofSource source).evaluate (.integer 4)).toOption.isSome := by
    decide +kernel
  obtain ⟨l, hl⟩ := Option.isSome_iff_exists.mp hl
  obtain ⟨r, hr⟩ := Option.isSome_iff_exists.mp hr
  obtain ⟨v, h⟩ := Option.isSome_iff_exists.mp h
  rw [toOption_eq_some] at hleft hright hl hr h
  have hkeeps : ¬KeepsIntegers "/*\"0x7\"*/ x / 2"
      [.identifier "x", .binary (.arithmetic .divide), .constant (.double 2)] := by
    decide +kernel
  obtain ⟨hdouble, htree, hinner, -⟩ := quotient_is_double enclosable_halved enclosable_len hleft hl hright hr h
  obtain ⟨x, rfl⟩ := hdouble.resolve_right fun hkept => hkeeps hkept.1
  exact ⟨x, l, r, h, htree, fun p q i j hdivision hi hj => hkeeps (hinner p q i j hdivision hi hj).2.2⟩

/-- Two texts that are expressions by themselves, while their quotient is an integer. -/
def CutsTo (a b : String) (input : Scalar) (quotient : Int64) : Prop :=
  (ofSource a).tree.isOk ∧ (ofSource b).tree.isOk ∧
    (ofSource ("(" ++ a ++ ") / (" ++ b ++ ")")).evaluate input = .ok (.integer quotient)

theorem cutsTo_of_computed {a b : String} {quotient : Int64}
    (h : (ofSource a).tree.isOk ∧ (ofSource b).tree.isOk ∧
      (match (ofSource ("(" ++ a ++ ") / (" ++ b ++ ")")).evaluate input with
        | .ok (.integer i) => i == quotient
        | _ => false) = true) : CutsTo a b input quotient := by
  obtain ⟨ha, hb, hvalue⟩ := h
  refine ⟨ha, hb, ?_⟩
  split at hvalue
  next i heq => rw [heq, beq_iff_eq.mp hvalue]
  · cases hvalue

/-- Integers on both sides: hexadecimal numbers, results of a function, and a number that a quote in a comment
    hides. -/
theorem integer_quotients :
    CutsTo "0x7" "0x2" (.integer 5) 3 ∧ CutsTo "len(\"abc\")" "len(\"ab\")" (.integer 5) 1 ∧
      CutsTo "/* \" */ 7" "2" (.integer 5) 3 :=
  ⟨cutsTo_of_computed (by decide +kernel), cutsTo_of_computed (by decide +kernel),
    cutsTo_of_computed (by decide +kernel)⟩

end SignalBridge.Expression
