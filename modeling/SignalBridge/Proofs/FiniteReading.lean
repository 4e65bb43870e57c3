import SignalBridge.Json.Basic
import SignalBridge.Proofs.DeclaredLeaves
import SignalBridge.Proofs.DoubleQuotient
import SignalBridge.Update

/-! The numbers of JSON texts are finite. A number starts from a whole one of 64 bits. It is divided by powers of ten
    not below ten, which keeps it finite, or multiplied by one, after which an infinite product is refused. -/

namespace SignalBridge

/-! ### Numbers -/

namespace Json

theorem takeDigits_lt {n : Nat} {digits : List Char} (hn : n < bit 64) : (takeDigits n digits).1 < bit 64 := by
  induction digits generalizing n with
  | nil => exact hn
  | cons c digits ih =>
    rw [takeDigits]
    split
    case isTrue hlonger => exact ih hlonger
    case isFalse => exact hn

theorem powerOfTen_eq {k : Nat} (hk : k ≤ maxPower) : powerOfTen k = Double.nearest ⟨false, Nat.pow 10 k, 0⟩ := by
  have hmost : k ≤ 308 := hk
  have hsize : ((Nat.log2 1 * 30103 / 100000 : Nat) : Int) = 0 := by decide
  rw [powerOfTen, Double.ofDecimal, hsize, if_neg (by decide), if_neg (by omega), if_neg (by omega), if_pos (by omega),
    Nat.one_mul, Int.toNat_natCast]

/-- The powers of ten that numbers are divided by are not below two. -/
theorem exists_parts?_powerOfTen {k : Nat} (hlow : 1 ≤ k) (hhigh : k ≤ maxPower) :
    ∃ d, Double.parts? (powerOfTen k) = some d ∧ 1 ≤ (d.mantissa.log2 : Int) + d.exponent := by
  rcases Nat.lt_or_eq_of_le hhigh with hlt | rfl
  · have hpositive : Nat.pow 10 k ≠ 0 := Nat.ne_of_gt (Nat.pow_pos (by decide))
    have hten : Nat.pow 10 1 ≤ Nat.pow 10 k := Nat.pow_le_pow_right (by decide) hlow
    have hmost : ∀ k < maxPower, Nat.pow 10 k < bit 1023 := by decide +kernel
    have hlow : 1 ≤ (Nat.pow 10 k).log2 := le_log2_of_bit_le (Nat.le_trans (by decide) hten)
    have hlog : (Nat.pow 10 k).log2 ≤ 1022 := log2_le_of_lt_bit (hmost k hlt)
    obtain ⟨d, hd, hsize⟩ := Double.exists_parts?_nearest false hpositive hlog
    exact ⟨d, powerOfTen_eq hhigh ▸ hd, by omega⟩
  · -- The largest power has one bit more than the lemma on whole numbers covers.
    have hlargest : (Double.parts? (powerOfTen maxPower)).any
        (fun d => decide (1 ≤ (d.mantissa.log2 : Int) + d.exponent)) = true := by
      decide +kernel
    obtain ⟨d, hd, hsize⟩ := (Option.any_eq_true _ _).mp hlargest
    exact ⟨d, hd, of_decide_eq_true hsize⟩

section
variable {x : Float}

theorem isFinite_div_powerOfTen {k : Nat} (hx : x.isFinite = true) (hlow : 1 ≤ k) (hhigh : k ≤ maxPower) :
    (x / powerOfTen k).isFinite = true := by
  obtain ⟨d, hd, hsize⟩ := exists_parts?_powerOfTen hlow hhigh
  exact Double.isFinite_div hx hd hsize

theorem isFinite_divideSteps {steps : Nat} (hx : x.isFinite = true) : (divideSteps steps x).isFinite = true := by
  induction steps generalizing x with
  | zero => exact hx
  | succ steps ih =>
    rw [divideSteps]
    split
    · exact hx
    · exact ih (isFinite_div_powerOfTen hx (by decide) (Nat.le_refl _))

theorem isFinite_of_scale? {power : Int} {y : Float} (hx : x.isFinite = true) (h : scale? x power = some y) :
    y.isFinite = true := by
  unfold scale? at h
  split at h
  next hnegative =>
    obtain rfl := Option.some.inj h
    have hplaces : 1 ≤ power.natAbs := by omega
    have hsteps : (power.natAbs - 1) / maxPower * maxPower ≤ power.natAbs - 1 := Nat.div_mul_le_self ..
    have hrest : power.natAbs - 1 < (power.natAbs - 1) / maxPower * maxPower + maxPower :=
      Nat.lt_div_mul_add (by decide)
    exact isFinite_div_powerOfTen (isFinite_divideSteps hx) (by omega) (by omega)
  next =>
    split at h
    · dsimp only at h
      split at h
      next hfinite =>
        obtain rfl := Option.some.inj h
        exact hfinite
      next => cases h
    · split at h
      · obtain rfl := Option.some.inj h
        exact hx
      · cases h

theorem isFinite_of_double? {l : Literal} (h : l.double? = some x) : x.isFinite = true := by
  have hleading : l.leading.1 < bit 64 := takeDigits_lt (takeDigits_lt (by decide))
  obtain ⟨y, hy, rfl⟩ := Option.map_eq_some_iff.mp h
  have hdigits : (l.leading.1 : Int).natAbs ≤ bit 64 := Nat.le_of_lt hleading
  have hfinite := isFinite_of_scale? (Double.isFinite_ofInt hdigits) hy
  split
  · exact Double.isFinite_neg hfinite
  · exact hfinite

end

/-! ### Values -/

/-- Every number in a value is finite as a double. -/
inductive Finite : Json → Prop
  | null : Finite .null
  | boolean (b : Bool) : Finite (.boolean b)
  | integer {i : Int} (hi : (Double.ofInt i).isFinite = true) : Finite (.integer i)
  | double {x : Float} (hx : x.isFinite = true) : Finite (.double x)
  | string (s : String) : Finite (.string s)
  | array {items : List Json} (hitems : ∀ v ∈ items, Finite v) : Finite (.array items)
  | object {members : List (String × Json)} (hmembers : ∀ x ∈ members, Finite x.2) : Finite (.object members)

section
variable {members : List (String × Json)} {key : String} {v : Json} {p : Json → Prop}

theorem forall_putMember (hv : p v) (hmembers : ∀ x ∈ members, p x.2) : ∀ x ∈ putMember key v members, p x.2 := by
  induction members with
  | nil => exact List.forall_mem_singleton.mpr hv
  | cons x members ih =>
    obtain ⟨hx, hmembers⟩ := List.forall_mem_cons.mp hmembers
    rw [putMember]
    split
    · exact List.forall_mem_cons.mpr ⟨hv, hmembers⟩
    · exact List.forall_mem_cons.mpr ⟨hx, ih hmembers⟩

/-- Merging members leaves no others than those that were read. -/
theorem forall_mergeMembers (hmembers : ∀ x ∈ members, p x.2) : ∀ x ∈ mergeMembers members, p x.2 := by
  have hfold (merged : List (String × Json)) (hmerged : ∀ x ∈ merged, p x.2) :
      ∀ x ∈ members.foldl (fun merged x => putMember x.1 x.2 merged) merged, p x.2 := by
    induction members generalizing merged with
    | nil => exact hmerged
    | cons x members ih =>
      obtain ⟨hx, hmembers⟩ := List.forall_mem_cons.mp hmembers
      exact ih hmembers _ (forall_putMember hx hmerged)
  exact hfold [] nofun

theorem mem_of_member? (h : member? members key = some v) : (key, v) ∈ members := by
  induction members with
  | nil => cases h
  | cons x members ih =>
    rw [member?_cons] at h
    split at h
    next hkey =>
      obtain rfl := Option.some.inj h
      exact hkey ▸ List.mem_cons_self
    next => exact List.mem_cons_of_mem _ (ih h)

theorem Finite.get? (hv : v.Finite) {u : Json} (h : v.get? key = some u) : u.Finite := by
  cases hv with
  | object hmembers => exact hmembers _ (mem_of_member? h)
  | _ => cases h

theorem finite_of_ofLiteral? {l : Literal} (h : ofLiteral? l = some v) : v.Finite := by
  unfold ofLiteral? at h
  split at h
  next hrange =>
    obtain rfl := Option.some.inj h
    rw [Bool.and_eq_true, Bool.and_eq_true, decide_eq_true_eq, decide_eq_true_eq] at hrange
    have hbit : bit 63 ≤ bit 64 := bit_le_bit (by decide)
    exact .integer (Double.isFinite_ofInt (by omega))
  next =>
    obtain ⟨x, hx, rfl⟩ := Option.map_eq_some_iff.mp h
    exact .double (isFinite_of_double? hx)

-- By recursion on the text as written; the bound on nesting decides only whether there is a value.
mutual

theorem finite_of_ofRaw? {nesting : Nat} {v : Json} : (r : Raw) → ofRaw? nesting r = some v → v.Finite
  | .null, h => by
    obtain rfl := Option.some.inj h
    exact .null
  | .boolean b, h => by
    obtain rfl := Option.some.inj h
    exact .boolean b
  | .number l, h => finite_of_ofLiteral? h
  | .string s, h => by
    obtain ⟨s, -, rfl⟩ := Option.map_eq_some_iff.mp h
    exact .string _
  | .array items, h => by
    cases nesting with
    | zero => cases h
    | succ nesting =>
      obtain ⟨items', hitems, rfl⟩ := Option.map_eq_some_iff.mp h
      exact .array (finite_of_ofRaws? items hitems)
  | .object members, h => by
    cases nesting with
    | zero => cases h
    | succ nesting =>
      obtain ⟨members', hmembers, rfl⟩ := Option.map_eq_some_iff.mp h
      exact .object (forall_mergeMembers (finite_of_ofRawMembers? members hmembers))

theorem finite_of_ofRaws? {nesting : Nat} {items : List Json} : (rs : List Raw) →
    ofRaws? nesting rs = some items → ∀ v ∈ items, v.Finite
  | [], h => by
    obtain rfl := Option.some.inj h
    exact nofun
  | r :: rs, h => by
    obtain ⟨v, hv, h⟩ := Option.bind_eq_some_iff.mp h
    obtain ⟨vs, hvs, h⟩ := Option.bind_eq_some_iff.mp h
    obtain rfl := Option.some.inj h
    exact List.forall_mem_cons.mpr ⟨finite_of_ofRaw? r hv, finite_of_ofRaws? rs hvs⟩

theorem finite_of_ofRawMembers? {nesting : Nat} {members : List (String × Json)} : (rs : List (List TextUnit × Raw)) →
    ofRawMembers? nesting rs = some members → ∀ x ∈ members, x.2.Finite
  | [], h => by
    obtain rfl := Option.some.inj h
    exact nofun
  | (key, r) :: rs, h => by
    obtain ⟨key, -, h⟩ := Option.bind_eq_some_iff.mp h
    obtain ⟨v, hv, h⟩ := Option.bind_eq_some_iff.mp h
    obtain ⟨vs, hvs, h⟩ := Option.bind_eq_some_iff.mp h
    obtain rfl := Option.some.inj h
    exact List.forall_mem_cons.mpr ⟨finite_of_ofRaw? r hv, finite_of_ofRawMembers? rs hvs⟩

end

theorem finite_of_parse? {text : String} (h : parse? text = some v) : v.Finite := by
  obtain ⟨r, -, h⟩ := Option.bind_eq_some_iff.mp h
  exact finite_of_ofRaw? r h

end
end Json

/-! ### Scalars -/

namespace Scalar
variable {v : Json} {s : Scalar}

/-- The scalar is not an infinity and not a NaN. -/
def Finite : Scalar → Prop
  | .double x => x.isFinite = true
  | .boolean _ | .integer _ | .text _ => True

theorem finite_of_ofJson? (hv : v.Finite) (h : ofJson? v = some s) : s.Finite := by
  cases hv with
  | null | array | object => cases h
  | boolean | string =>
    obtain rfl := Option.some.inj h
    exact trivial
  | double hx =>
    obtain rfl := Option.some.inj h
    exact hx
  | integer hi =>
    rw [ofJson?] at h
    split at h
    · obtain rfl := Option.some.inj h
      exact trivial
    · obtain rfl := Option.some.inj h
      exact hi

/-- Both ways to read a scalar agree. -/
theorem firstFit?_eq : firstFit? v = ofJson? v := by
  cases v with
  | integer i =>
    rw [ofJson?, firstFit?]
    cases hi : int64? i <;> simp [List.findSome?, hi]
  | _ => rfl

/-- The value was read from JSON: on its own, or as the value of an update. -/
def Decoded (s : Scalar) : Prop :=
  (∃ text v, Json.parse? text = some v ∧ ofJson? v = some s) ∨ ∃ r, Update.valueOfRaw? r = some (some s)

theorem Decoded.finite (h : s.Decoded) : s.Finite := by
  rcases h with ⟨text, v, hv, hs⟩ | ⟨r, hr⟩
  · exact finite_of_ofJson? (Json.finite_of_parse? hv) hs
  · unfold Update.valueOfRaw? at hr
    split at hr
    · cases hr
    · obtain ⟨s', hs, heq⟩ := Option.map_eq_some_iff.mp hr
      obtain rfl := Option.some.inj heq
      obtain ⟨v, hv, hs⟩ := Option.bind_eq_some_iff.mp hs
      rw [firstFit?_eq] at hs
      exact finite_of_ofJson? (Json.finite_of_ofRaw? _ hv) hs

end Scalar
end SignalBridge
