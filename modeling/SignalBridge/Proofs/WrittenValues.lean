import SignalBridge.Proofs.DeclarationGrammar
import SignalBridge.Proofs.ExactNumbers

/-! Values of JSON as they are written. Of the members of an object with one key the last one counts. Which scalar a
    value is read as does not depend on where it stands, and whether two scalars agree can be told from how they are
    written. -/

namespace SignalBridge

/-! ### Lists in step -/

section
variable {α β γ : Type} {R : α → β → Prop} {l : List α} {l' : List β} {p : α → Bool} {q : β → Bool}

theorem rel_find?_of_forall₂ (h : List.Forall₂ R l l') (hpq : ∀ a b, R a b → p a = q b) :
    Option.Rel R (l.find? p) (l'.find? q) := by
  induction h with
  | nil => exact .none
  | @cons a b l l' hab _ ih =>
    rw [List.find?_cons, List.find?_cons, hpq a b hab]
    cases q b with
    | true => exact .some hab
    | false => exact ih

theorem rel_map {α' β' : Type} {S : α' → β' → Prop} {f : α → α'} {g : β → β'} {a? : Option α} {b? : Option β}
    (h : Option.Rel R a? b?) (hfg : ∀ a b, R a b → S (f a) (g b)) : Option.Rel S (a?.map f) (b?.map g) := by
  cases h with
  | some h => exact .some (hfg _ _ h)
  | none => exact .none

/-- What the first element that passes a test is related to. -/
theorem map_find?_of_forall₂ {Passes : α → Prop} {f : β → γ} {g : α → Option γ} (h : List.Forall₂ R l l')
    (hpasses : ∀ a b, R a b → (q b = true ↔ Passes a)) (hfg : ∀ a b, R a b → g a = some (f b)) (c : γ) :
    (l'.find? q).map f = some c ↔
      ∃ before a after, l = before ++ a :: after ∧ (∀ x ∈ before, ¬Passes x) ∧ Passes a ∧ g a = some c := by
  induction h with
  | nil => simp
  | @cons a b l l' hab _ ih =>
    rw [List.find?_cons]
    constructor
    · intro hfound
      split at hfound
      next hq => exact ⟨[], a, l, rfl, nofun, (hpasses a b hab).mp hq, (hfg a b hab).trans hfound⟩
      next hq =>
        obtain ⟨before, x, after, rfl, hbefore, hx⟩ := ih.mp hfound
        have hfirst : ¬Passes a := fun ha => by
          rw [(hpasses a b hab).mpr ha] at hq
          cases hq
        exact ⟨a :: before, x, after, rfl, List.forall_mem_cons.mpr ⟨hfirst, hbefore⟩, hx⟩
    · rintro ⟨before, x, after, heq, hbefore, hx, hc⟩
      cases before with
      | nil =>
        obtain ⟨rfl, rfl⟩ := List.cons.inj heq
        rw [(hpasses a b hab).mpr hx]
        exact (hfg a b hab).symm.trans hc
      | cons y before =>
        obtain ⟨rfl, rfl⟩ := List.cons.inj heq
        obtain ⟨hfirst, hbefore⟩ := List.forall_mem_cons.mp hbefore
        have hq : q b = false := Bool.eq_false_iff.mpr fun hq => hfirst ((hpasses a b hab).mp hq)
        rw [hq]
        exact ih.mpr ⟨before, x, after, rfl, hbefore, hx, hc⟩

theorem find?_eq_none_of_forall₂ {Passes : α → Prop} (h : List.Forall₂ R l l')
    (hpasses : ∀ a b, R a b → (q b = true ↔ Passes a)) : l'.find? q = none ↔ ∀ a ∈ l, ¬Passes a := by
  induction h with
  | nil => exact iff_of_true rfl nofun
  | @cons a b l l' hab _ ih =>
    rw [List.find?_cons, List.forall_mem_cons, ← hpasses a b hab, ← ih]
    cases q b <;> simp

end

namespace Json

/-! ### Members -/

section
variable {members : List (String × Json)} {key : String} {v : Json}

theorem member?_putMember (name : String) : member? (putMember key v members) name =
    if key = name then some v else member? members name := by
  induction members with
  | nil => exact member?_cons
  | cons x members ih =>
    obtain ⟨k, w⟩ := x
    rw [putMember]
    by_cases hk : k = key
    · subst hk
      rw [if_pos rfl, member?_cons, member?_cons]
      split <;> rfl
    · rw [if_neg hk, member?_cons, member?_cons, ih]
      by_cases hname : k = name
      · rw [if_pos hname, if_pos hname, if_neg fun heq => hk (hname.trans heq.symm)]
      · rw [if_neg hname, if_neg hname]

/-- Of the members with one key the last one is kept. -/
theorem member?_mergeMembers (members : List (String × Json)) (key : String) :
    member? (mergeMembers members) key = (members.reverse.find? (·.1 == key)).map (·.2) := by
  induction members using List.reverseRecOn with
  | nil => rfl
  | append_singleton members x ih =>
    have hmerge : mergeMembers (members ++ [x]) = putMember x.1 x.2 (mergeMembers members) := List.foldl_concat ..
    rw [hmerge, member?_putMember, ih, List.reverse_concat, List.find?_cons]
    by_cases hkey : x.1 = key
    · rw [if_pos hkey, beq_iff_eq.mpr hkey]
      rfl
    · rw [if_neg hkey, beq_false_of_ne hkey]

end

/-- The value of a key of an object. -/
def Raw.member? (key : String) : Raw → Option Raw
  | .object members => (members.reverse.find? fun m => textOf? m.1 == some key.toList).map (·.2)
  | _ => none

section
variable {n : ℕ} {r : Raw} {v : Json}

theorem forall₂_of_ofRaws? {rs : List Raw} {vs : List Json} (h : ofRaws? n rs = some vs) :
    List.Forall₂ (fun r v => ofRaw? n r = some v) rs vs := by
  induction rs generalizing vs with
  | nil =>
    obtain rfl := Option.some.inj h
    exact .nil
  | cons r rs ih =>
    obtain ⟨v, hv, h⟩ := Option.bind_eq_some_iff.mp h
    obtain ⟨vs, hvs, h⟩ := Option.bind_eq_some_iff.mp h
    obtain rfl := Option.some.inj h
    exact .cons hv (ih hvs)

theorem forall₂_of_ofRawMembers? {rs : List (List TextUnit × Raw)} {members : List (String × Json)}
    (h : ofRawMembers? n rs = some members) :
    List.Forall₂ (fun r m => textOf? r.1 = some m.1.toList ∧ ofRaw? n r.2 = some m.2) rs members := by
  induction rs generalizing members with
  | nil =>
    obtain rfl := Option.some.inj h
    exact .nil
  | cons r rs ih =>
    obtain ⟨key, hkey, h⟩ := Option.bind_eq_some_iff.mp h
    obtain ⟨v, hv, h⟩ := Option.bind_eq_some_iff.mp h
    obtain ⟨members, hmembers, h⟩ := Option.bind_eq_some_iff.mp h
    obtain rfl := Option.some.inj h
    exact .cons ⟨hkey.trans (by rw [String.toList_ofList]), hv⟩ (ih hmembers)

theorem number_of_ofLiteral? {l : Literal} (h : ofLiteral? l = some v) :
    (∃ i, v = .integer i) ∨ ∃ x, v = .double x := by
  unfold ofLiteral? at h
  split at h
  · exact .inl ⟨_, (Option.some.inj h).symm⟩
  · obtain ⟨x, -, rfl⟩ := Option.map_eq_some_iff.mp h
    exact .inr ⟨x, rfl⟩

theorem exists_array_of_ofRaw? {vs : List Json} (h : ofRaw? n r = some (.array vs)) :
    ∃ rs m, r = .array rs ∧ ofRaws? m rs = some vs := by
  cases r with
  | null | boolean => cases h
  | string => cases (Option.map_eq_some_iff.mp h).choose_spec.2
  | number l => rcases number_of_ofLiteral? h with ⟨_, h⟩ | ⟨_, h⟩ <;> cases h
  | array rs =>
    cases n with
    | zero => cases h
    | succ n =>
      obtain ⟨vs, hvs, h⟩ := Option.map_eq_some_iff.mp h
      obtain rfl := Json.array.inj h
      exact ⟨rs, n, rfl, hvs⟩
  | object =>
    cases n with
    | zero => cases h
    | succ n => cases (Option.map_eq_some_iff.mp h).choose_spec.2

/-- The members of a value are read from those that are written. -/
theorem rel_member? (h : ofRaw? n r = some v) (key : String) :
    Option.Rel (fun r v => ∃ n, ofRaw? n r = some v) (r.member? key) (v.get? key) := by
  cases r with
  | null =>
    obtain rfl := Option.some.inj h
    exact .none
  | boolean =>
    obtain rfl := Option.some.inj h
    exact .none
  | string =>
    obtain ⟨_, -, rfl⟩ := Option.map_eq_some_iff.mp h
    exact .none
  | number l =>
    rcases number_of_ofLiteral? h with ⟨_, rfl⟩ | ⟨_, rfl⟩
    · exact .none
    · exact .none
  | array items =>
    cases n with
    | zero => cases h
    | succ n =>
      obtain ⟨_, -, rfl⟩ := Option.map_eq_some_iff.mp h
      exact .none
  | object rs =>
    cases n with
    | zero => cases h
    | succ n =>
      obtain ⟨members, hmembers, rfl⟩ := Option.map_eq_some_iff.mp h
      have hsame (r : List TextUnit × Raw) (m : String × Json)
          (h : textOf? r.1 = some m.1.toList ∧ ofRaw? n r.2 = some m.2) :
          (textOf? r.1 == some key.toList) = (m.1 == key) := by
        rw [h.1, Bool.eq_iff_iff, beq_iff_eq, beq_iff_eq, Option.some_inj, String.toList_inj]
      rw [Raw.member?, get?, member?_mergeMembers]
      refine rel_map (rel_find?_of_forall₂ ?_ hsame) fun r m h => ⟨n, h.2⟩
      exact List.forall₂_reverse_iff.mpr (forall₂_of_ofRawMembers? hmembers)

end

/-! ### Scalars -/

/-- The scalar that a value is read as. -/
def Raw.scalar? (r : Raw) : Option Scalar :=
  (ofRaw? 0 r).bind Scalar.ofJson?

/-- Arrays and objects are no scalars, and nothing else depends on the bound on nesting. -/
theorem bind_ofRaw? (n : ℕ) (r : Raw) : (ofRaw? n r).bind Scalar.ofJson? = r.scalar? := by
  cases r with
  | null | boolean | number | string => rfl
  | array items =>
    cases n with
    | zero => rfl
    | succ n =>
      rw [ofRaw?]
      cases ofRaws? n items <;> rfl
  | object members =>
    cases n with
    | zero => rfl
    | succ n =>
      rw [ofRaw?]
      cases ofRawMembers? n members <;> rfl

theorem bind_member? {n : ℕ} {r : Raw} {v : Json} (h : ofRaw? n r = some v) (key : String) :
    (r.member? key).bind Raw.scalar? = (v.get? key).bind Scalar.ofJson? := by
  have hrel := rel_member? h key
  generalize r.member? key = r? at hrel ⊢
  generalize v.get? key = v? at hrel ⊢
  cases hrel with
  | none => rfl
  | some h =>
    obtain ⟨n, h⟩ := h
    rw [Option.bind_some, Option.bind_some, ← bind_ofRaw? n, h, Option.bind_some]

namespace Literal
variable {l l' : Literal}

/-- An integer of 64 signed bits, other than `-0`. -/
def IsWord (l : Literal) : Prop :=
  l.isInteger = true ∧ -(bit 63 : ℤ) ≤ l.integer ∧ l.integer < bit 63

instance : Decidable l.IsWord :=
  inferInstanceAs (Decidable (_ ∧ _))

theorem isInteger_iff : l.isInteger = true ↔
    l.fraction = none ∧ l.exponent = none ∧ (l.negative = true → Text.wholeOf l.whole ≠ 0) := by
  simp [isInteger, and_assoc, imp_iff_not_or]

/-- A number with a fraction or an exponent is no integer. -/
theorem not_isWord (h : l.fraction.isSome = true ∨ l.exponent.isSome = true) : ¬l.IsWord := by
  intro hword
  obtain ⟨hfraction, hexponent, -⟩ := isInteger_iff.mp hword.1
  rw [hfraction, hexponent] at h
  exact h.elim Bool.false_ne_true Bool.false_ne_true

theorem integer_of_nonneg (h : l.isInteger = true) (hlow : 0 ≤ l.integer) :
    l.negative = false ∧ l.integer = Text.wholeOf l.whole := by
  obtain ⟨-, -, hzero⟩ := isInteger_iff.mp h
  rw [integer] at hlow ⊢
  cases hnegative : l.negative with
  | false => exact ⟨rfl, rfl⟩
  | true =>
    rw [hnegative, if_pos rfl] at hlow
    exact absurd (by omega) (hzero hnegative)

/-- A whole number of 64 bits that is read as a double is read as the nearest one. -/
theorem double?_of_isInteger (h : l.isInteger = true) (hlow : 0 ≤ l.integer) (hhigh : l.integer < bit 64) :
    l.double? = some (Double.ofInt l.integer) := by
  obtain ⟨hfraction, hexponent, -⟩ := isInteger_iff.mp h
  obtain ⟨hnegative, hwhole⟩ := integer_of_nonneg h hlow
  have hdigits : l.digits = Text.wholeOf l.whole := by
    rw [digits, hfraction, Option.getD_none, List.append_nil]
  have hpower : l.power = 0 := by
    rw [power, hfraction, hexponent]
    rfl
  have hlt : l.digits < bit 64 := by omega
  have hscale := scale?_zero (Double.isFinite_ofInt (i := l.digits) (Nat.le_of_lt hlt))
  rw [double?, leading_eq hlt, hpower]
  dsimp only
  rw [hscale, Option.map_some, hnegative, hdigits, hwhole]
  rfl

end Literal

theorem int64?_eq_none {i : ℤ} : int64? i = none ↔ ¬(-(bit 63 : ℤ) ≤ i ∧ i < bit 63) := by
  have hleast : Int64.minValue.toInt = -(bit 63 : ℤ) := by decide
  have hmost : Int64.maxValue.toInt = (bit 63 : ℤ) - 1 := by decide
  unfold int64?
  split
  next h => exact ⟨nofun, fun hnot => absurd ⟨by omega, by omega⟩ hnot⟩
  next h => exact ⟨fun _ hin => h ⟨by omega, by omega⟩, fun _ => rfl⟩

namespace Raw
variable {r r' : Raw} {s s' : Scalar}

/-- What scalars are read as, by how they are written. -/
inductive Denotes : Raw → Scalar → Prop
  | boolean (b : Bool) : Denotes (.boolean b) (.boolean b)
  | string {units : List TextUnit} {text : List Char} (h : textOf? units = some text) :
      Denotes (.string units) (.text (String.ofList text))
  | word {l : Literal} {i : Int64} (h : l.IsWord) (hi : i.toInt = l.integer) : Denotes (.number l) (.integer i)
  | double {l : Literal} {x : Float} (h : ¬l.IsWord) (hx : l.double? = some x) : Denotes (.number l) (.double x)

theorem scalar?_of_isWord {l : Literal} (h : l.IsWord) :
    ∃ i, int64? l.integer = some i ∧ (number l).scalar? = some (.integer i) := by
  have hbit : bit 63 < bit 64 := bit_lt_bit (by decide)
  have hread : ofLiteral? l = some (.integer l.integer) := by
    refine if_pos ?_
    rw [Bool.and_eq_true, Bool.and_eq_true, decide_eq_true_eq, decide_eq_true_eq]
    exact ⟨⟨h.1, h.2.1⟩, Int.lt_trans h.2.2 (by exact_mod_cast hbit)⟩
  obtain ⟨i, hi⟩ := Option.ne_none_iff_exists'.mp (mt int64?_eq_none.mp (not_not.mpr h.2))
  refine ⟨i, hi, ?_⟩
  change (ofLiteral? l).bind Scalar.ofJson? = _
  simp only [hread, Option.bind_some, Scalar.ofJson?, hi]

theorem scalar?_of_not_isWord {l : Literal} (h : ¬l.IsWord) : (number l).scalar? = l.double?.map .double := by
  change (ofLiteral? l).bind Scalar.ofJson? = _
  unfold ofLiteral?
  split
  next hwhole =>
    -- A whole number beyond 64 signed bits is first kept as it is.
    rw [Bool.and_eq_true, Bool.and_eq_true, decide_eq_true_eq, decide_eq_true_eq] at hwhole
    obtain ⟨⟨hinteger, hlow⟩, hhigh⟩ := hwhole
    have hbeyond : ¬(-(bit 63 : ℤ) ≤ l.integer ∧ l.integer < bit 63) := fun hin => h ⟨hinteger, hin⟩
    have hdouble := Literal.double?_of_isInteger hinteger (by omega) hhigh
    simp only [Option.bind_some, Scalar.ofJson?, int64?_eq_none.mpr hbeyond, hdouble, Option.map_some]
  next =>
    rw [Option.bind_map]
    cases l.double? <;> rfl

theorem scalar?_eq_some : r.scalar? = some s ↔ r.Denotes s := by
  constructor
  · intro h
    cases r with
    | null | array | object => cases h
    | boolean b =>
      obtain rfl := Option.some.inj h
      exact .boolean b
    | string units =>
      obtain ⟨v, hv, hs⟩ := Option.bind_eq_some_iff.mp h
      obtain ⟨text, htext, rfl⟩ := Option.map_eq_some_iff.mp hv
      obtain rfl := Option.some.inj hs
      exact .string htext
    | number l =>
      by_cases hword : l.IsWord
      · obtain ⟨i, hi, hscalar⟩ := scalar?_of_isWord hword
        obtain rfl := Option.some.inj (hscalar.symm.trans h)
        exact .word hword (int64?_eq_some hi)
      · rw [scalar?_of_not_isWord hword] at h
        obtain ⟨x, hx, rfl⟩ := Option.map_eq_some_iff.mp h
        exact .double hword hx
  · intro h
    cases h with
    | boolean b => rfl
    | string htext =>
      change ((textOf? _).map _).bind Scalar.ofJson? = _
      rw [htext]
      rfl
    | word hword hi =>
      obtain ⟨i, hi', hscalar⟩ := scalar?_of_isWord hword
      rw [hscalar, Int64.toInt_inj.mp ((int64?_eq_some hi').trans hi.symm)]
    | double hdouble hx => rw [scalar?_of_not_isWord hdouble, hx, Option.map_some]

/-- Two values are the same scalar: equal booleans, equal texts, equal integers of 64 signed bits, or other numbers
    that are read as equal doubles. -/
inductive SameScalar : Raw → Raw → Prop
  | boolean (b : Bool) : SameScalar (.boolean b) (.boolean b)
  | string {units units' : List TextUnit} {text : List Char} (h : textOf? units = some text)
      (h' : textOf? units' = some text) : SameScalar (.string units) (.string units')
  | word {l l' : Literal} (h : l.IsWord) (h' : l'.IsWord) (heq : l.integer = l'.integer) :
      SameScalar (.number l) (.number l')
  | double {l l' : Literal} {x x' : Float} (h : ¬l.IsWord) (h' : ¬l'.IsWord) (hx : l.double? = some x)
      (hx' : l'.double? = some x') (heq : (x == x') = true) : SameScalar (.number l) (.number l')

theorem not_sameScalar_of_isWord {l l' : Literal} (h : l.IsWord) (h' : ¬l'.IsWord) :
    ¬SameScalar (.number l) (.number l') ∧ ¬SameScalar (.number l') (.number l) := by
  constructor
  · intro hsame
    cases hsame with
    | word _ hword => exact h' hword
    | double hdouble => exact hdouble h
  · intro hsame
    cases hsame with
    | word hword => exact h' hword
    | double _ hdouble => exact hdouble h

theorem agrees_iff_sameScalar (h : r.Denotes s) (h' : r'.Denotes s') : s.agrees s' = true ↔ SameScalar r r' := by
  cases h with
  | boolean b =>
    cases h' with
    | boolean b' =>
      rw [Scalar.agrees, beq_iff_eq]
      constructor
      · rintro rfl
        exact .boolean b
      · rintro ⟨⟩
        rfl
    | string | word | double => exact iff_of_false Bool.false_ne_true nofun
  | string htext =>
    cases h' with
    | string htext' =>
      rw [Scalar.agrees, beq_iff_eq, String.ofList_inj]
      constructor
      · rintro rfl
        exact .string htext htext'
      · intro h
        cases h with
        | string h h' =>
          obtain rfl := Option.some.inj (htext.symm.trans h)
          exact Option.some.inj (h'.symm.trans htext')
    | boolean | word | double => exact iff_of_false Bool.false_ne_true nofun
  | word hword hi =>
    cases h' with
    | word hword' hi' =>
      rw [Scalar.agrees, beq_iff_eq, ← Int64.toInt_inj, hi, hi']
      constructor
      · exact .word hword hword'
      · intro h
        cases h with
        | word _ _ heq => exact heq
        | double h => exact absurd hword h
    | double hdouble => exact iff_of_false Bool.false_ne_true (not_sameScalar_of_isWord hword hdouble).1
    | boolean | string => exact iff_of_false Bool.false_ne_true nofun
  | double hdouble hx =>
    cases h' with
    | word hword => exact iff_of_false Bool.false_ne_true (not_sameScalar_of_isWord hword hdouble).2
    | double hdouble' hx' =>
      constructor
      · exact .double hdouble hdouble' hx hx'
      · intro h
        cases h with
        | word h => exact absurd h hdouble
        | double _ _ hy hy' heq =>
          obtain rfl := Option.some.inj (hx.symm.trans hy)
          obtain rfl := Option.some.inj (hx'.symm.trans hy')
          exact heq
    | boolean | string => exact iff_of_false Bool.false_ne_true nofun

end Raw

end Json
end SignalBridge
