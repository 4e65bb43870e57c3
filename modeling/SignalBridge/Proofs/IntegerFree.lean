import SignalBridge.Expression.Evaluation
import SignalBridge.Proofs.Placing

/-! Values without integers. An expression can only produce an integer from an integer that it is given: from a
    constant, from the variable, or from one of the functions that count or that start from an integer. Every
    other operation on values without integers gives a value without integers or fails. -/

namespace SignalBridge.Expression

/-- No integer occurs in the value, nor in the items of a tuple. -/
inductive Value.IntegerFree : Value → Prop
  | text (s : String) : IntegerFree (.text s)
  | double (x : Float) : IntegerFree (.double x)
  | boolean (b : Bool) : IntegerFree (.boolean b)
  | tuple {items : List Value} (h : ∀ v ∈ items, IntegerFree v) : IntegerFree (.tuple items)
  | empty : IntegerFree .empty

/-- Where the function succeeds on a value without integers, it gives one. -/
def Preserves (f : Value → Except Fault Value) : Prop :=
  ∀ {v w}, v.IntegerFree → f v = .ok w → w.IntegerFree

namespace Value
variable {v a b c : Value} {i : Int64} {items : List Value}

/-! ### Arguments -/

theorem IntegerFree.asInteger (h : v.IntegerFree) : v.asInteger ≠ .ok i := by
  cases h <;> exact nofun

theorem asPair_eq_ok : v.asPair = .ok (a, b) ↔ v = .tuple [a, b] := by
  unfold asPair
  split <;> simp_all

theorem asTriple_eq_ok : v.asTriple = .ok (a, b, c) ↔ v = .tuple [a, b, c] := by
  unfold asTriple
  split <;> simp_all

theorem IntegerFree.of_mem_tuple (h : (Value.tuple items).IntegerFree) (hv : v ∈ items) : v.IntegerFree := by
  cases h with
  | tuple h => exact h v hv

end Value

/-! ### Functions -/

theorem ok_preserves {f : Value → Value} (hf : ∀ v, (f v).IntegerFree) : Preserves fun v => .ok (f v) := by
  intro v w _ h
  exact Except.ok.inj h ▸ hf v

theorem ofNumber_preserves {f : Float → Value} (hf : ∀ x, (f x).IntegerFree) : Preserves (ofNumber f) := by
  intro v w _ h
  obtain ⟨x, -, rfl⟩ := map_eq_ok.mp h
  exact hf x

theorem ofNumbers_preserves {f : Float → Float → Value} (hf : ∀ x y, (f x y).IntegerFree) :
    Preserves (ofNumbers f) := by
  intro v w _ h
  obtain ⟨⟨a, b⟩, -, h⟩ := bind_eq_ok.mp h
  dsimp only at h
  obtain ⟨x, -, h⟩ := bind_eq_ok.mp h
  obtain ⟨y, -, h⟩ := bind_eq_ok.mp h
  exact Except.ok.inj h ▸ hf x y

theorem ofInteger_preserves {f : Int64 → Value} : Preserves fun v => v.asInteger.map f := by
  intro v w hv h
  obtain ⟨i, hi, -⟩ := map_eq_ok.mp h
  exact absurd hi hv.asInteger

theorem ofIntegers_preserves {f : Int64 → Int64 → Int64} : Preserves (ofIntegers f) := by
  intro v w hv h
  obtain ⟨⟨a, b⟩, hpair, hresult⟩ := bind_eq_ok.mp h
  obtain ⟨i, hi, -⟩ := bind_eq_ok.mp hresult
  rw [Value.asPair_eq_ok.mp hpair] at hv
  exact absurd hi (hv.of_mem_tuple List.mem_cons_self).asInteger

theorem ofText_preserves {f : List Char → List Char} : Preserves (ofText f) := by
  intro v w _ h
  obtain ⟨s, -, rfl⟩ := map_eq_ok.mp h
  exact .text _

theorem absolute_preserves : Preserves absolute := by
  intro v w hv h
  cases hv with
  | double x => exact Except.ok.inj h ▸ .double _
  | _ => cases h

theorem choose_preserves : Preserves choose := by
  intro v w hv h
  obtain ⟨⟨condition, yes, no⟩, htriple, hresult⟩ := bind_eq_ok.mp h
  obtain ⟨b, -, hresult⟩ := bind_eq_ok.mp hresult
  obtain rfl := Except.ok.inj hresult
  rw [Value.asTriple_eq_ok.mp htriple] at hv
  cases b <;> exact hv.of_mem_tuple (by simp)

theorem contains_preserves : Preserves contains := by
  intro v w _ h
  obtain ⟨⟨_, _⟩, -, h⟩ := bind_eq_ok.mp h
  dsimp only at h
  obtain ⟨_, -, h⟩ := bind_eq_ok.mp h
  obtain ⟨_, -, h⟩ := bind_eq_ok.mp h
  exact Except.ok.inj h ▸ .boolean _

theorem containsAny_preserves : Preserves containsAny := by
  intro v w _ h
  obtain ⟨⟨_, _⟩, -, h⟩ := bind_eq_ok.mp h
  dsimp only at h
  obtain ⟨_, -, h⟩ := bind_eq_ok.mp h
  obtain ⟨_, -, h⟩ := bind_eq_ok.mp h
  obtain ⟨_, -, h⟩ := bind_eq_ok.mp h
  exact Except.ok.inj h ▸ .boolean _

theorem asPlainText_integerFree (v : Value) : (asPlainText v).IntegerFree := by
  cases v <;> exact .text _

theorem substring_integerFree {s : List Char} {start stop : Nat} {w : Value} (h : substring s start stop = .ok w) :
    w.IntegerFree := by
  unfold substring at h
  split at h
  · exact Except.ok.inj h ▸ .text _
  · cases h

theorem substringOf_preserves : Preserves substringOf := by
  intro v w _ h
  unfold substringOf at h
  split at h
  · obtain ⟨_, -, h⟩ := bind_eq_ok.mp h
    obtain ⟨_, -, h⟩ := bind_eq_ok.mp h
    exact substring_integerFree h
  · obtain ⟨_, -, h⟩ := bind_eq_ok.mp h
    obtain ⟨_, -, h⟩ := bind_eq_ok.mp h
    obtain ⟨_, -, h⟩ := bind_eq_ok.mp h
    exact substring_integerFree h
  · cases h
  · cases h

/-- The functions whose result can be an integer though their argument has none: one counts, the others start
    from an integer. -/
def integerFunctions : List String :=
  ["len", "min", "max"]

theorem builtin?_preserves {name : String} {f : Value → Except Fault Value} (hname : name ∉ integerFunctions)
    (h : builtin? name = some f) : Preserves f := by
  unfold builtin? at h
  split at h <;> cases h
  all_goals first
    | exact ofNumber_preserves fun _ => .double _
    | exact ofNumber_preserves fun _ => .boolean _
    | exact ofNumbers_preserves fun _ _ => .double _
    | exact ofIntegers_preserves
    | exact ofText_preserves
    | exact absolute_preserves
    | exact choose_preserves
    | exact contains_preserves
    | exact containsAny_preserves
    | exact substringOf_preserves
    | exact ok_preserves fun _ => .text _
    | exact ok_preserves asPlainText_integerFree
    | exact ofInteger_preserves
    | exact absurd (by decide) hname

/-! ### Operators -/

namespace Value
variable {v w left right : Value}

/-- Arithmetic gives a double unless both operands are integers. -/
theorem double_of_onNumbers {a : Arithmetic} (h : a.onNumbers left right = .ok w) :
    (∃ x, w = .double x) ∨ ∃ i j, left = .integer i ∧ right = .integer j := by
  unfold Arithmetic.onNumbers at h
  split at h
  next i j => exact .inr ⟨i, j, rfl, rfl⟩
  · obtain ⟨_, -, h⟩ := bind_eq_ok.mp h
    obtain ⟨_, -, h⟩ := bind_eq_ok.mp h
    exact .inl ⟨_, (Except.ok.inj h).symm⟩

theorem onNumbers_integerFree {a : Arithmetic} (hleft : left.IntegerFree) (h : a.onNumbers left right = .ok w) :
    w.IntegerFree := by
  rcases double_of_onNumbers h with ⟨x, rfl⟩ | ⟨i, _, rfl, _⟩
  · exact .double x
  · cases hleft

theorem sum_integerFree (hleft : left.IntegerFree) (h : left.sum right = .ok w) : w.IntegerFree := by
  obtain ⟨_, -, h⟩ := bind_eq_ok.mp h
  obtain ⟨_, -, h⟩ := bind_eq_ok.mp h
  split at h
  · exact Except.ok.inj h ▸ .text _
  · split at h
    · cases h
    · exact onNumbers_integerFree hleft h

theorem compare_integerFree {onTexts : String → String → Bool} {onIntegers : Int64 → Int64 → Bool}
    {onDoubles : Float → Float → Bool} (h : left.compare onTexts onIntegers onDoubles right = .ok w) :
    w.IntegerFree := by
  obtain ⟨_, -, h⟩ := bind_eq_ok.mp h
  obtain ⟨_, -, h⟩ := bind_eq_ok.mp h
  split at h
  · exact Except.ok.inj h ▸ .boolean _
  · exact Except.ok.inj h ▸ .boolean _
  · obtain ⟨_, -, h⟩ := bind_eq_ok.mp h
    obtain ⟨_, -, h⟩ := bind_eq_ok.mp h
    exact Except.ok.inj h ▸ .boolean _

end Value

theorem Binary.apply_integerFree {b : Binary} {left right w : Value} (hleft : left.IntegerFree)
    (h : b.apply left right = .ok w) : w.IntegerFree := by
  unfold Binary.apply at h
  split at h
  case h_1 => exact Value.sum_integerFree hleft h
  case h_2 =>
    obtain ⟨_, -, h⟩ := bind_eq_ok.mp h
    obtain ⟨_, -, h⟩ := bind_eq_ok.mp h
    exact Value.onNumbers_integerFree hleft h
  case h_3 =>
    obtain ⟨_, -, h⟩ := bind_eq_ok.mp h
    obtain ⟨_, -, h⟩ := bind_eq_ok.mp h
    exact Except.ok.inj h ▸ .double _
  case h_10 | h_11 =>
    obtain ⟨_, -, h⟩ := bind_eq_ok.mp h
    obtain ⟨_, -, h⟩ := bind_eq_ok.mp h
    exact Except.ok.inj h ▸ .boolean _
  all_goals first
    | exact Value.compare_integerFree h
    | exact Except.ok.inj h ▸ .boolean _

theorem negation_preserves : Preserves negation := by
  intro v w hv h
  unfold negation at h
  split at h
  · cases hv
  · obtain ⟨_, -, h⟩ := bind_eq_ok.mp h
    exact Except.ok.inj h ▸ .double _

/-! ### Operations and trees -/

/-- The operation can give an integer though its children give none. -/
def Operation.bringsInteger : Operation → Bool
  | constant (.integer _) => true
  | call name => integerFunctions.contains name
  | _ => false

section
variable {bound : String → Option Value} {arguments : List Value} {f : Value → Except Fault Value} {w : Value}

theorem withOne_eq_ok : withOne arguments f = .ok w ↔ ∃ v, arguments = [v] ∧ f v = .ok w := by
  unfold withOne
  split <;> simp_all

theorem withTwo_eq_ok {f : Value → Value → Except Fault Value} :
    withTwo arguments f = .ok w ↔ ∃ u v, arguments = [u, v] ∧ f u v = .ok w := by
  unfold withTwo
  split
  next u v =>
    constructor
    · exact fun h => ⟨u, v, rfl, h⟩
    · rintro ⟨_, _, heq, h⟩
      obtain ⟨rfl, rfl, -⟩ := by simpa using heq
      exact h
  next vs hvs => exact ⟨nofun, fun ⟨u, v, heq, _⟩ => absurd heq (hvs u v)⟩

theorem withNone_eq_ok {result : Except Fault Value} :
    withNone arguments result = .ok w ↔ arguments = [] ∧ result = .ok w := by
  unfold withNone
  split <;> simp_all

theorem withOne_integerFree (hf : Preserves f) (harguments : ∀ v ∈ arguments, v.IntegerFree)
    (h : withOne arguments f = .ok w) : w.IntegerFree := by
  obtain ⟨v, rfl, hv⟩ := withOne_eq_ok.mp h
  exact hf (harguments v List.mem_cons_self) hv

theorem Operation.apply_integerFree {o : Operation} (hbound : ∀ name v, bound name = some v → v.IntegerFree)
    (ho : o.bringsInteger = false) (harguments : ∀ v ∈ arguments, v.IntegerFree)
    (h : o.apply bound arguments = .ok w) : w.IntegerFree := by
  cases o with
  | group =>
    obtain rfl := Except.ok.inj h
    cases arguments with
    | nil => exact .empty
    | cons v _ => exact harguments v List.mem_cons_self
  | constant c =>
    obtain ⟨-, hc⟩ := withNone_eq_ok.mp h
    obtain rfl := Except.ok.inj hc
    cases c with
    | integer _ => cases ho
    | text _ => exact .text _
    | double _ => exact .double _
    | boolean _ => exact .boolean _
  | read name =>
    obtain ⟨-, hread⟩ := withNone_eq_ok.mp h
    split at hread
    · next v hv => exact Except.ok.inj hread ▸ hbound name v hv
    · cases hread
  | write name =>
    obtain ⟨-, hwrite⟩ := withNone_eq_ok.mp h
    exact Except.ok.inj hwrite ▸ .text _
  | call name =>
    have hname : name ∉ integerFunctions := by simpa [bringsInteger] using ho
    refine withOne_integerFree (f := fun v => _) ?_ harguments h
    intro v w hv hcall
    dsimp only at hcall
    split at hcall
    · next f hf => exact builtin?_preserves hname hf hv hcall
    · cases hcall
  | negate => exact withOne_integerFree negation_preserves harguments h
  | not =>
    refine withOne_integerFree (f := fun v => _) ?_ harguments h
    intro v w _ hnot
    obtain ⟨_, -, rfl⟩ := map_eq_ok.mp hnot
    exact .boolean _
  | binary b =>
    obtain ⟨u, v, rfl, happly⟩ := withTwo_eq_ok.mp h
    exact Binary.apply_integerFree (harguments u List.mem_cons_self) happly
  | assign | updateAssign _ => cases h
  | tuple => exact Except.ok.inj h ▸ .tuple harguments
  | chain =>
    cases hlast : arguments.getLast? with
    | none => simp [apply, hlast] at h
    | some v =>
      obtain rfl : v = w := by simpa [apply, hlast] using h
      exact harguments v (List.mem_of_getLast? hlast)

namespace Tree

theorem forall_of_evaluateAll {P : Value → Prop} {ts : List Tree} {vs : List Value}
    (hts : ∀ t ∈ ts, ∀ v, t.evaluate bound = .ok v → P v) (h : evaluateAll bound ts = .ok vs) : ∀ v ∈ vs, P v := by
  induction ts generalizing vs with
  | nil =>
    obtain rfl := Except.ok.inj h
    exact nofun
  | cons t ts ih =>
    rw [evaluateAll] at h
    obtain ⟨us, hus, h⟩ := bind_eq_ok.mp h
    obtain ⟨u, hu, h⟩ := bind_eq_ok.mp h
    obtain rfl := Except.ok.inj h
    intro v hv
    rcases List.mem_append.mp hv with hv | hv
    · exact ih (fun t' ht' => hts t' (List.mem_cons_of_mem _ ht')) hus v hv
    · exact List.mem_singleton.mp hv ▸ hts t List.mem_cons_self u hu

/-- A tree that brings no integer in has a value without integers, if the names stand for such values. -/
theorem evaluate_integerFree {t : Tree} (hbound : ∀ name v, bound name = some v → v.IntegerFree)
    (ht : t.All (·.bringsInteger = false)) (h : t.evaluate bound = .ok w) : w.IntegerFree := by
  induction ht generalizing w with
  | node ho _ ih =>
    rw [evaluate] at h
    obtain ⟨arguments, harguments, happly⟩ := bind_eq_ok.mp h
    refine Operation.apply_integerFree hbound ho ?_ happly
    exact forall_of_evaluateAll (fun t ht v hv => ih t ht hv) harguments

/-- Somewhere in the tree an operation can bring an integer in. -/
def BringsInteger (t : Tree) : Prop :=
  ∃ s : Tree, s.Within t ∧ s.operation.bringsInteger = true

theorem BringsInteger.mono {s t : Tree} (h : s.BringsInteger) (hs : s.Within t) : t.BringsInteger := by
  obtain ⟨u, hu, hbrings⟩ := h
  exact ⟨u, hu.trans hs, hbrings⟩

/-- An integer as value was brought in. -/
theorem bringsInteger_of_evaluate {t : Tree} {i : Int64} (hbound : ∀ name v, bound name = some v → v.IntegerFree)
    (h : t.evaluate bound = .ok (.integer i)) : t.BringsInteger := by
  by_cases hbrings : t.BringsInteger
  · exact hbrings
  · have hall : t.All (·.bringsInteger = false) :=
      all_of_within fun s hs => Bool.eq_false_iff.mpr fun heq => hbrings ⟨s, hs, heq⟩
    cases evaluate_integerFree hbound hall h

end Tree

end

end SignalBridge.Expression
