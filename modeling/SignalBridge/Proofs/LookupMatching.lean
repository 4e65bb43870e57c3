import SignalBridge.Proofs.WrittenValues

/-! Lookups, by what is written in a mapping and in a line of updates. Both are read in the same way, so a lookup gives
    the target of the first row whose source is written as the same scalar as the value of the update. Numbers other
    than integers of 64 signed bits are the same if they are read as equal doubles. If a number is rounded once when it
    is read, this is its nearest double. -/

namespace SignalBridge
open Json

/-! ### Rows -/

section
variable {item u raw : Raw} {row : LookupRow} {rows : List LookupRow} {s : Scalar} {n : ℕ} {v : Json}

/-- The row is read from an item of a list. -/
def LookupRow.ReadFrom (item : Raw) (row : LookupRow) : Prop :=
  (item.member? "from").bind Raw.scalar? = some row.source ∧ (item.member? "to").bind Raw.scalar? = some row.target

/-- The source of an item is the same scalar as a value. -/
def Json.Raw.Matches (item u : Raw) : Prop :=
  ∃ source, item.member? "from" = some source ∧ Raw.SameScalar source u

theorem LookupRow.ReadFrom.agrees_iff (h : row.ReadFrom item) (hu : u.scalar? = some s) :
    row.source.agrees s = true ↔ item.Matches u := by
  obtain ⟨source, hsource, hscalar⟩ := Option.bind_eq_some_iff.mp h.1
  rw [Raw.agrees_iff_sameScalar (Raw.scalar?_eq_some.mp hscalar) (Raw.scalar?_eq_some.mp hu), Raw.Matches, hsource]
  exact ⟨fun h => ⟨source, rfl, h⟩, fun ⟨_, heq, h⟩ => Option.some.inj heq ▸ h⟩

theorem LookupRow.readFrom_of_ofJson (hv : ofRaw? n item = some v) (h : LookupRow.ofJson v = .ok row) :
    row.ReadFrom item := by
  rw [ReadFrom, bind_member? hv, bind_member? hv]
  exact LookupRow.ofJson_eq_ok.mp h

theorem forall₂_readFrom {items : List Raw} {vs : List Json}
    (hitems : List.Forall₂ (fun r v => ofRaw? n r = some v) items vs)
    (hrows : List.Forall₂ (fun v row => LookupRow.ofJson v = .ok row) vs rows) :
    List.Forall₂ LookupRow.ReadFrom items rows := by
  induction hitems generalizing rows with
  | nil =>
    cases hrows
    exact .nil
  | cons hv _ ih =>
    cases hrows with
    | cons h hrows => exact .cons (LookupRow.readFrom_of_ofJson hv h) (ih hrows)

/-- The rows of a lookup are read from the items of the list `mapping`. -/
theorem Transform.readFrom_of_lookup (hv : ofRaw? n raw = some v) (h : Transform.ofJson v = .ok (.lookup rows)) :
    ∃ items, raw.member? "mapping" = some (.array items) ∧ List.Forall₂ LookupRow.ReadFrom items rows := by
  obtain ⟨members, rfl, ⟨vs, _, hmapping, -, hrows, hlookup⟩ | ⟨_, -, -, hexpression⟩⟩ := Transform.ofJson_cases h
  · obtain rfl := Transform.lookup.inj hlookup
    have hrel := rel_member? hv "mapping"
    rw [Json.get?, hmapping] at hrel
    generalize raw.member? "mapping" = r? at hrel ⊢
    cases hrel with
    | some hr =>
      obtain ⟨m, hr⟩ := hr
      obtain ⟨items, k, rfl, hitems⟩ := exists_array_of_ofRaw? hr
      exact ⟨items, rfl, forall₂_readFrom (forall₂_of_ofRaws? hitems) (forall₂_of_mapM hrows)⟩
  · cases hexpression

end

/-! ### Updates -/

namespace Update
variable {item u : Raw} {update : Update} {p p' : Draft} {key : List TextUnit} {r : Raw} {x : Option Scalar}
  {members : List (List TextUnit × Raw)}

/-- What an update is written with as its value. -/
inductive Gives : Raw → Raw → Prop
  | member {members : List (List TextUnit × Raw)} {key : List TextUnit} {u : Raw} (hmem : (key, u) ∈ members)
      (hkey : textOf? key = some "value".toList) : Gives (.object members) u
  | third {path field u : Raw} : Gives (.array [path, field, u]) u

theorem Draft.read?_value (hkey : textOf? key = some "value".toList) (h : p.read? key r = some p') :
    ∃ x, valueOfRaw? r = some x ∧ p'.value = some x := by
  obtain ⟨k, hk, h⟩ := Option.bind_eq_some_iff.mp h
  obtain rfl := Option.some.inj (hk.symm.trans hkey)
  rw [if_neg (by decide), if_neg (by decide), if_pos rfl] at h
  split at h
  · cases h
  · obtain ⟨x, hx, h⟩ := Option.bind_eq_some_iff.mp h
    obtain rfl := Option.some.inj h
    exact ⟨x, hx, rfl⟩

/-- A value that was read stays, since a second one is refused. -/
theorem Draft.read?_of_value (hp : p.value = some x) (h : p.read? key r = some p') : p'.value = some x := by
  obtain ⟨k, -, h⟩ := Option.bind_eq_some_iff.mp h
  split at h
  · split at h
    · cases h
    · obtain ⟨_, -, h⟩ := Option.bind_eq_some_iff.mp h
      obtain rfl := Option.some.inj h
      exact hp
  · split at h
    · split at h
      · cases h
      · obtain ⟨_, -, h⟩ := Option.bind_eq_some_iff.mp h
        obtain rfl := Option.some.inj h
        exact hp
    · split at h
      · rw [hp, Option.isSome_some, if_pos rfl] at h
        cases h
      · obtain rfl := Option.some.inj h
        exact hp

theorem Draft.foldlM_of_value (hp : p.value = some x)
    (h : members.foldlM (fun p (key, r) => Draft.read? p key r) p = some p') : p'.value = some x := by
  induction members generalizing p with
  | nil =>
    obtain rfl := Option.some.inj h
    exact hp
  | cons m members ih =>
    rw [List.foldlM_cons] at h
    obtain ⟨p₁, h₁, h⟩ := Option.bind_eq_some_iff.mp h
    exact ih (Draft.read?_of_value hp h₁) h

theorem Draft.foldlM_value (hmem : (key, u) ∈ members) (hkey : textOf? key = some "value".toList)
    (h : members.foldlM (fun p (key, r) => Draft.read? p key r) p = some p') :
    ∃ x, valueOfRaw? u = some x ∧ p'.value = some x := by
  induction members generalizing p with
  | nil => cases hmem
  | cons m members ih =>
    rw [List.foldlM_cons] at h
    obtain ⟨p₁, hfirst, hrest⟩ := Option.bind_eq_some_iff.mp h
    rcases List.mem_cons.mp hmem with rfl | hmem
    · obtain ⟨x, hx, hvalue⟩ := Draft.read?_value hkey hfirst
      exact ⟨x, hx, Draft.foldlM_of_value hvalue hrest⟩
    · exact ih hmem hrest

theorem valueOfRaw?_of_gives (h : Update.ofRaw? item = some update) (hu : Gives item u) :
    valueOfRaw? u = some update.value := by
  cases hu with
  | member hmem hkey =>
    obtain ⟨p, hp, h⟩ := Option.bind_eq_some_iff.mp h
    obtain ⟨x, hx, hvalue⟩ := Draft.foldlM_value hmem hkey hp
    obtain ⟨path, -, h⟩ := Option.bind_eq_some_iff.mp h
    obtain ⟨field, -, h⟩ := Option.bind_eq_some_iff.mp h
    obtain rfl := Option.some.inj h
    rw [hx, hvalue]
    rfl
  | third =>
    obtain ⟨path, -, h⟩ := Option.bind_eq_some_iff.mp h
    obtain ⟨field, -, h⟩ := Option.bind_eq_some_iff.mp h
    obtain ⟨value, hvalue, h⟩ := Option.bind_eq_some_iff.mp h
    obtain rfl := Option.some.inj h
    exact hvalue

/-- The value of an update is read as the source of a row is. -/
theorem valueOfRaw?_eq (n : ℕ) (hr : r ≠ .null) :
    valueOfRaw? r = ((Json.ofRaw? n r).bind Scalar.ofJson?).map some := by
  have hsame : Scalar.firstFit? = Scalar.ofJson? := funext fun _ => Scalar.firstFit?_eq
  unfold valueOfRaw?
  split
  · exact absurd rfl hr
  · rw [hsame, bind_ofRaw?, bind_ofRaw?]

end Update

namespace Batch
variable {line : String} {items : List Raw} {batch : Batch} {item : Raw} {i : ℕ}

theorem exists_getElem?_of_mapM {α β : Type} {f : α → Option β} {l : List α} {l' : List β} {a : α}
    (h : l.mapM f = some l') (ha : l[i]? = some a) : ∃ b, l'[i]? = some b ∧ f a = some b := by
  induction l generalizing l' i with
  | nil => cases ha
  | cons x l ih =>
    rw [List.mapM_cons] at h
    obtain ⟨y, hy, h⟩ := Option.bind_eq_some_iff.mp h
    obtain ⟨ys, hys, h⟩ := Option.bind_eq_some_iff.mp h
    obtain rfl := Option.some.inj h
    cases i with
    | zero =>
      obtain rfl := Option.some.inj ha
      exact ⟨y, rfl, hy⟩
    | succ i =>
      obtain ⟨b, hb, hfb⟩ := ih hys ha
      exact ⟨b, hb, hfb⟩

/-- The updates of a line are read from the items of its list, each from its own. -/
theorem exists_of_parse? (hline : Raw.parse? line.toList = some (.array items))
    (hbatch : Batch.parse? line = some batch) (hitem : items[i]? = some item) :
    ∃ update, batch[i]? = some update ∧ Update.ofRaw? item = some update := by
  rw [Batch.parse?, hline] at hbatch
  exact exists_getElem?_of_mapM hbatch hitem

end Batch

/-! ### Matches -/

namespace Transform
variable {raw item u : Raw} {v : Json} {rows : List LookupRow} {items updates : List Raw} {line : String}
  {batch : Batch} {n i : ℕ} {s : Scalar}

theorem output?_lookup (hrows : List.Forall₂ LookupRow.ReadFrom items rows) (hu : u.scalar? = some s)
    (target : Scalar) : (lookup rows).output? s = some target ↔
      ∃ before item after, items = before ++ item :: after ∧ (∀ earlier ∈ before, ¬earlier.Matches u) ∧
        item.Matches u ∧ (item.member? "to").bind Raw.scalar? = some target :=
  map_find?_of_forall₂ hrows (fun _ _ h => h.agrees_iff hu) (fun _ _ h => h.2) target

theorem output?_lookup_eq_none (hrows : List.Forall₂ LookupRow.ReadFrom items rows)
    (hu : u.scalar? = some s) : (lookup rows).output? s = none ↔ ∀ item ∈ items, ¬item.Matches u := by
  rw [output?, Option.map_eq_none_iff]
  exact find?_eq_none_of_forall₂ hrows fun _ _ h => h.agrees_iff hu

/-- The transform is a table of rows. -/
def isLookup : Transform → Bool
  | lookup _ => true
  | expression _ => false

theorem exists_lookup (h : ((Json.ofRaw? n raw).bind fun v => (ofJson v).toOption).any isLookup = true) :
    ∃ v rows, Json.ofRaw? n raw = some v ∧ ofJson v = .ok (.lookup rows) := by
  obtain ⟨t, ht, hlookup⟩ := (Option.any_eq_true _ _).mp h
  obtain ⟨v, hv, ht⟩ := Option.bind_eq_some_iff.mp ht
  cases t with
  | lookup rows => exact ⟨v, rows, hv, toOption_eq_some.mp ht⟩
  | expression => cases hlookup

/-- A lookup gives the target of the first row whose source is the same scalar as the value of an update, and nothing
    if there is no such row. Values of updates are read as those of rows are, an integer of 64 signed bits is never the
    same as a number with a fraction or an exponent, and a number that is rounded once is read as its nearest double. -/
theorem output_of_line (hsection : Json.ofRaw? n raw = some v) (htransform : ofJson v = .ok (.lookup rows))
    (hline : Raw.parse? line.toList = some (.array updates)) (hbatch : Batch.parse? line = some batch)
    (hitem : updates[i]? = some item) (hgives : Update.Gives item u) (hu : u ≠ .null) :
    (∃ items update s, raw.member? "mapping" = some (.array items) ∧ batch[i]? = some update ∧ update.value = some s ∧
      (∀ target, (lookup rows).output? s = some target ↔
        ∃ before row after, items = before ++ row :: after ∧ (∀ earlier ∈ before, ¬earlier.Matches u) ∧
          row.Matches u ∧ (row.member? "to").bind Raw.scalar? = some target) ∧
      ((lookup rows).output? s = none ↔ ∀ row ∈ items, ¬row.Matches u)) ∧
    (∀ n r, r ≠ .null → Update.valueOfRaw? r = ((Json.ofRaw? n r).bind Scalar.ofJson?).map some) ∧
    (∀ l l' : Literal, l.IsWord → l'.fraction.isSome ∨ l'.exponent.isSome →
      ¬Raw.SameScalar (.number l) (.number l') ∧ ¬Raw.SameScalar (.number l') (.number l)) ∧
    ∀ l : Literal, l.Exact → ∃ x, l.double? = some x ∧ Double.IsNearest l.value x := by
  refine ⟨?_, fun n _ => Update.valueOfRaw?_eq n, fun l l' hword hpoint => ?_, fun l => Literal.isNearest_double?⟩
  · obtain ⟨items, hmapping, hrows⟩ := readFrom_of_lookup hsection htransform
    obtain ⟨update, hupdate, hread⟩ := Batch.exists_of_parse? hline hbatch hitem
    have hvalue := Update.valueOfRaw?_of_gives hread hgives
    rw [Update.valueOfRaw?_eq 0 hu, bind_ofRaw?] at hvalue
    obtain ⟨s, hs, hsome⟩ := Option.map_eq_some_iff.mp hvalue
    exact ⟨items, update, s, hmapping, hupdate, hsome.symm, output?_lookup hrows hs, output?_lookup_eq_none hrows hs⟩
  · exact Raw.not_sameScalar_of_isWord hword (Literal.not_isWord hpoint)

/-- A list `mapping` of rows that have numbers as sources and targets. -/
def writtenMapping (rows : List (Literal × Literal)) : Raw :=
  .object [(key "mapping", .array (rows.map fun row =>
    .object [(key "from", .number row.1), (key "to", .number row.2)]))]
where
  key (s : String) : List TextUnit := s.toList.map .char

/-- An integer with one digit. -/
def digit (c : Char) : Literal :=
  { negative := false, whole := [c], fraction := none, exponent := none }

/-- An update to `1e0` passes over the row for `1`, and is given the target of the row for `1.0`. -/
theorem output_of_line_point :
    let point : Literal := { digit '1' with fraction := some ['0'] }
    let raw := writtenMapping [(digit '1', digit '5'), (point, digit '6')]
    let line := "[[\"V\", \"value\", 1e0]]"
    ∃ v rows batch update s, Json.ofRaw? 3 raw = some v ∧ ofJson v = .ok (.lookup rows) ∧
      Batch.parse? line = some batch ∧ batch[0]? = some update ∧ update.value = some s ∧
        (lookup rows).output? s = some (.integer 6) := by
  intro point raw line
  let scaled : Literal := { digit '1' with exponent := some 0 }
  have hlookup : ((Json.ofRaw? 3 raw).bind fun v => (ofJson v).toOption).any isLookup = true := by decide +kernel
  obtain ⟨v, rows, hv, hrows⟩ := exists_lookup hlookup
  have hline : Raw.parse? line.toList =
      some (.array [.array [.string [.char 'V'], .string ("value".toList.map .char), .number scaled]]) := by
    cbv
  have hread : (Batch.parse? line).isSome = true := by decide +kernel
  obtain ⟨batch, hbatch⟩ := Option.isSome_iff_exists.mp hread
  have hnumber : Raw.number scaled ≠ .null := by simp
  obtain ⟨⟨items, update, s, hmapping, hupdate, hvalue, hfound, -⟩, -, hseparate, hexact⟩ :=
    output_of_line hv hrows hline hbatch (i := 0) rfl .third hnumber
  obtain rfl := Raw.array.inj (Option.some.inj hmapping)
  obtain ⟨x, hx, -⟩ := hexact point (by decide)
  obtain ⟨y, hy, -⟩ := hexact scaled (by decide)
  have hequal : (point.double?.bind fun x => scaled.double?.map fun y => x == y) = some true := by decide +kernel
  rw [hx, hy] at hequal
  have htarget : (Raw.number (digit '6')).scalar? = some (.integer 6) :=
    Raw.scalar?_eq_some.mpr (.word (by decide) (by decide))
  refine ⟨v, rows, batch, update, s, hv, hrows, hbatch, hupdate, hvalue,
    (hfound _).mpr ⟨[_], _, [], rfl, ?_, ?_, ?_⟩⟩
  · refine List.forall_mem_singleton.mpr ?_
    rintro ⟨source, hsource, hsame⟩
    obtain rfl := Option.some.inj hsource
    exact (hseparate (digit '1') scaled (by decide) (.inr rfl)).1 hsame
  · exact ⟨_, rfl, .double (by decide) (by decide) hx hy (Option.some.inj hequal)⟩
  · change (some (Raw.number (digit '6'))).bind Raw.scalar? = _
    exact htarget

/-- Two spellings of one number do not match. While `300000000000000000000000` is read as the nearest double, the
    digits of `3e23` are multiplied by a power of ten that is rounded itself, which gives the neighbour. -/
theorem output_of_equal_nearest :
    let scaled : Literal := { digit '3' with exponent := some 23 }
    let whole : Literal := { digit '3' with whole := '3' :: List.replicate 23 '0' }
    ¬scaled.IsWord ∧ ¬whole.IsWord ∧ (∃ x, Double.IsNearest scaled.value x ∧ Double.IsNearest whole.value x) ∧
      ∃ v rows s, Json.ofRaw? 3 (writtenMapping [(scaled, digit '1')]) = some v ∧ ofJson v = .ok (.lookup rows) ∧
        Update.valueOfRaw? (.number whole) = some (some s) ∧ (lookup rows).output? s = none := by
  intro scaled whole
  have hlookup : ((Json.ofRaw? 3 (writtenMapping [(scaled, digit '1')])).bind fun v => (ofJson v).toOption).any
      isLookup = true := by
    decide +kernel
  obtain ⟨v, rows, hv, hrows⟩ := exists_lookup hlookup
  have hscaled : ¬scaled.IsWord := by decide
  have hwhole : ¬whole.IsWord := by decide
  have hvalue : whole.value = (3 * 10 ^ 23 : ℕ) := by
    have hdigits : whole.digits = 3 * 10 ^ 23 := by decide
    have hpower : whole.power = 0 := by decide
    rw [Literal.value, hdigits, hpower, zpow_zero, mul_one]
    exact one_mul _
  have hvalue' : scaled.value = (3 * 10 ^ 23 : ℕ) := by
    have hdigits : scaled.digits = 3 := by decide
    have hpower : scaled.power = 23 := by decide
    rw [Literal.value, hdigits, hpower]
    change ((1 : ℤ) : ℚ) * ((3 : ℕ) * 10 ^ (23 : ℤ)) = _
    norm_num
  have hnearest := isNearest_ofNat (by decide : (3 * 10 ^ 23).log2 ≤ 1022)
  rw [hvalue, hvalue']
  refine ⟨hscaled, hwhole, ⟨_, hnearest, hnearest⟩, v, rows, ?_⟩
  have hread : (Raw.number whole).scalar?.isSome = true := by decide +kernel
  obtain ⟨s, hs⟩ := Option.isSome_iff_exists.mp hread
  have hupdate : Update.valueOfRaw? (.number whole) = some (some s) := by
    rw [Update.valueOfRaw?_eq (r := .number whole) 0 nofun, bind_ofRaw?, hs]
    rfl
  obtain ⟨items, hmapping, hreadFrom⟩ := readFrom_of_lookup hv hrows
  obtain rfl := Raw.array.inj (Option.some.inj hmapping)
  refine ⟨s, hv, hrows, hupdate, (output?_lookup_eq_none hreadFrom hs).mpr (List.forall_mem_singleton.mpr ?_)⟩
  rintro ⟨source, hsource, hsame⟩
  obtain rfl := Option.some.inj hsource
  have hdiffer : (scaled.double?.bind fun x => whole.double?.map fun y => x == y) = some false := by decide +kernel
  cases hsame with
  | word h => exact hscaled h
  | double _ _ hx hy heq =>
    rw [hx, hy] at hdiffer
    exact Bool.false_ne_true ((Option.some.inj hdiffer).symm.trans heq)

end Transform
end SignalBridge
