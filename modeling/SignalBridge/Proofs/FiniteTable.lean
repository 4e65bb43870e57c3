import SignalBridge.Proofs.FiniteReading
import SignalBridge.Proofs.FrameOverlay

/-! No infinity and no NaN enters a table. What a transform gives is the value that came in, a target that was read
    from the mapping document, or the result of an expression, which is checked. So every update keeps the last values
    finite, and with finite defaults the values of a frame are finite. -/

namespace SignalBridge

/-! ### Transforms -/

namespace LookupRow

theorem finite_of_ofJson {row : Json} {r : LookupRow} (hrow : row.Finite) (h : ofJson row = .ok r) :
    r.target.Finite := by
  have hscalar {v : Json} {s : Scalar} (hv : v.Finite) (h : scalarOfJson v = .ok s) : s.Finite := by
    unfold scalarOfJson at h
    split at h
    next s' hs =>
      obtain rfl := Except.ok.inj h
      exact Scalar.finite_of_ofJson? hv hs
    next => cases h
  unfold ofJson at h
  split at h
  next source target _ htarget =>
    obtain ⟨source', -, h⟩ := bind_eq_ok.mp h
    obtain ⟨target', htarget', h⟩ := bind_eq_ok.mp h
    obtain rfl := Except.ok.inj h
    exact hscalar (hrow.get? htarget) htarget'
  next => cases h

end LookupRow

theorem Expression.finite_of_evaluate {e : Expression} {v w : Scalar} (h : e.evaluate v = .ok w) : w.Finite := by
  obtain ⟨tree, -, h⟩ := bind_eq_ok.mp h
  obtain ⟨result, -, h⟩ := bind_eq_ok.mp h
  unfold scalarResult at h
  split at h
  next x _ =>
    split at h
    next hfinite =>
      obtain rfl := Except.ok.inj h
      exact hfinite
    next => cases h
  next s hs hscalar =>
    obtain rfl := Except.ok.inj h
    cases s with
    | double x => exact absurd rfl (hs x)
    | _ => exact trivial
  next => cases h

namespace Transform
variable {t : Transform} {v w : Scalar}

/-- The targets of a table of rows are finite. -/
def Finite : Transform → Prop
  | lookup rows => ∀ r ∈ rows, r.target.Finite
  | expression _ => True

theorem finite_of_ofJson {section_ : Json} (hsection : section_.Finite) (h : ofJson section_ = .ok t) : t.Finite := by
  cases hsection with
  | object hmembers =>
    unfold ofJson at h
    dsimp only [Json.asObject?] at h
    split at h
    · cases h
    · cases h
    next rows hrows _ =>
      have hfinite := hmembers _ (Json.mem_of_member? hrows)
      cases hfinite with
      | array hitems =>
        obtain ⟨rows', hrows', rfl⟩ := map_eq_ok.mp h
        intro r hr
        obtain ⟨row, hrow, hr⟩ := exists_of_mem_mapM hrows' hr
        exact LookupRow.finite_of_ofJson (hitems row hrow) hr
      | _ => cases h
    next =>
      split at h
      · obtain rfl := Except.ok.inj h
        exact trivial
      · cases h
  | _ => cases h

/-- What a transform gives for a finite value is finite, whatever its expression computes on the way. -/
theorem finite_of_transformed? {t : Option Transform} (ht : ∀ t' ∈ t, t'.Finite) (hv : v.Finite)
    (h : transformed? t v = some w) : w.Finite := by
  cases t with
  | none =>
    obtain rfl := Option.some.inj h
    exact hv
  | some t =>
    cases t with
    | lookup rows =>
      obtain ⟨r, hr, rfl⟩ := Option.map_eq_some_iff.mp h
      exact ht _ rfl r (List.mem_of_find?_eq_some hr)
    | expression e => exact e.finite_of_evaluate (toOption_eq_some.mp h)

end Transform

/-! ### Documents -/

namespace Declaration
variable {d : Declaration} {v : Json} {leaf : Leaf} {members : List (String × Json)} {transform : Option Transform}

theorem finite_of_transformOf (hmembers : ∀ x ∈ members, x.2.Finite) (h : transformOf members = .ok transform) :
    ∀ t ∈ transform, t.Finite := by
  have hsome {v : Json} (hv : v.Finite) (h : (Transform.ofJson v).map some = .ok transform) :
      ∀ t ∈ transform, t.Finite := by
    obtain ⟨t, ht, rfl⟩ := map_eq_ok.mp h
    rintro _ ⟨⟩
    exact Transform.finite_of_ofJson hv ht
  unfold transformOf at h
  split at h
  next v hv => exact hsome (hmembers _ (Json.mem_of_member? hv)) h
  next =>
    split at h
    · exact hsome (.object hmembers) h
    · obtain rfl := Except.ok.inj h
      exact nofun

theorem finite_of_ofJson (hv : v.Finite) (h : ofJson v = .ok d) : ∀ t ∈ d.transform, t.Finite := by
  cases hv with
  | object hmembers =>
    rw [ofJson_object] at h
    split at h
    · cases h
    · cases h
    · obtain ⟨transform, htransform, h⟩ := bind_eq_ok.mp h
      obtain rfl := Except.ok.inj h
      exact finite_of_transformOf hmembers htransform
  | _ => cases h

end Declaration

/-- The members of a leaf are those of an object of the document. -/
theorem finite_of_leafAt {branches : List String} {name : String} {v : Json} {place : List Nat} {leaf : Leaf}
    (h : LeafAt branches name v place leaf) (hv : v.Finite) : ∀ x ∈ leaf.members, x.2.Finite := by
  induction h with
  | leaf =>
    cases hv with
    | object hmembers => exact hmembers
  | child _ hchildren hi _ ih =>
    cases hv.get? hchildren with
    | object hbelow => exact ih (hbelow _ (List.mem_of_getElem? hi))
  | member _ hi _ ih =>
    cases hv with
    | object hmembers => exact ih (hmembers _ (List.mem_of_getElem? hi))

/-! ### Tables -/

/-- The targets and the last value of an entry are finite. -/
structure Entry.Finite (e : Entry) : Prop where
  transform : ∀ t ∈ e.transform, t.Finite
  last : ∀ v ∈ e.last, v.Finite

theorem Entry.Finite.refreshed {e : Entry} {v : Scalar} (he : e.Finite) (hv : v.Finite) : (e.refreshed v).Finite where
  transform := he.transform
  last _ h := Transform.finite_of_transformed? he.transform hv h

namespace Table
variable {t : Table} {document : Json} {frameOf? : String → Option Nat} {v : Scalar} {path : String}
  {updates : List (String × Scalar)}

/-- The entries of a table are finite. -/
def Finite (t : Table) : Prop :=
  ∀ (i : Nat) (e : Entry), t.entries[i]? = some e → e.Finite

theorem finite_of_build (hdocument : document.Finite) (h : build document frameOf? = .ok t) : t.Finite := by
  intro i e he
  have hmem : e ∈ t.entries.toList := Array.mem_toList_iff.mpr (Array.mem_of_getElem? he)
  rw [(holds_build h).entries] at hmem
  obtain ⟨⟨path, e⟩, hx, rfl⟩ := List.mem_map.mp hmem
  obtain ⟨leaf, hleaf, hdeclared⟩ := List.mem_filterMap.mp hx
  obtain ⟨hofLeaf, -, -, hlast⟩ := declared?_eq_some.mp hdeclared
  obtain ⟨declaration, hmember, hofJson⟩ := Declaration.ofLeaf_eq_some hofLeaf
  obtain ⟨placed, hplaced, -, hat⟩ := listed_leaves [] "" document
  obtain ⟨⟨place, leaf⟩, hplace, rfl⟩ := List.mem_map.mp (hplaced ▸ hleaf)
  have hmembers := finite_of_leafAt ((hat _ _).mp hplace) hdocument
  refine ⟨Declaration.finite_of_ofJson (hmembers _ (Json.mem_of_member? hmember)) hofJson, fun v hv => ?_⟩
  rw [hlast] at hv
  cases hv

/-- An update keeps the entries finite. -/
theorem Finite.update (h : t.Finite) (hv : v.Finite) : (t.update path v).Finite := by
  intro i e he
  rw [getElem?_update] at he
  obtain ⟨e, hi, rfl⟩ := Option.map_eq_some_iff.mp he
  split
  · exact (h i e hi).refreshed hv
  · exact h i e hi

theorem Finite.updateAll (h : t.Finite) (hupdates : ∀ u ∈ updates, u.2.Finite) : (t.updateAll updates).Finite := by
  induction updates generalizing t with
  | nil => exact h
  | cons u updates ih =>
    obtain ⟨hu, hupdates⟩ := List.forall_mem_cons.mp hupdates
    exact ih (h.update hu) hupdates

theorem Finite.applyBatches {batches : List (List (String × Scalar))} (h : t.Finite)
    (hbatches : ∀ batch ∈ batches, ∀ u ∈ batch, u.2.Finite) : (t.applyBatches batches).1.Finite := by
  rw [applyBatches_fst]
  refine h.updateAll fun u hu => ?_
  obtain ⟨batch, hbatch, hu⟩ := List.mem_flatten.mp hu
  exact hbatches batch hbatch u hu

/-! ### Frames -/

theorem finite_overlay {values : SignalValues} {entries : List Entry}
    (hvalues : ∀ (name : String) (v : Scalar), values[name]? = some v → v.Finite)
    (hentries : ∀ e ∈ entries, e.Finite) {name : String} (h : (overlay values entries)[name]? = some v) :
    v.Finite := by
  rcases exists_of_getElem?_overlay h with ⟨e, he, hlast⟩ | hbelow
  · exact (hentries e he).last _ hlast
  · exact hvalues name v hbelow

theorem Finite.frameValues (h : t.Finite) {defaults : Defaults} {frame : Nat} {values : SignalValues}
    (hdefaults : ∀ values, defaults.values? frame = some values →
      ∀ (name : String) (v : Scalar), values[name]? = some v → v.Finite)
    (hvalues : t.frameValues defaults frame = .ok values) {name : String} (hv : values[name]? = some v) :
    v.Finite := by
  unfold Table.frameValues at hvalues
  split at hvalues
  next start hstart =>
    obtain rfl := Except.ok.inj hvalues
    refine finite_overlay (hdefaults start hstart) (fun e he => ?_) hv
    obtain ⟨i, -, hi⟩ := List.mem_filterMap.mp he
    exact h i e hi
  next => cases hvalues

/-- Whatever expressions a mapping document has, after any batches of values that were read from JSON, no last value
    of its table is an infinity or a NaN, and with finite defaults no value of a frame is. -/
theorem finite_after_batches {text : String} {batches : List (List (String × Scalar))}
    (hdocument : Json.parse? text = some document) (hbuild : build document frameOf? = .ok t)
    (hbatches : ∀ batch ∈ batches, ∀ u ∈ batch, u.2.Decoded) :
    (∀ e ∈ (t.applyBatches batches).1.entries, ∀ x, e.last = some (.double x) → x.isFinite = true) ∧
      ∀ defaults frame values,
        (∀ values, Defaults.values? defaults frame = some values →
          ∀ (name : String) (x : Float), values[name]? = some (.double x) → x.isFinite = true) →
        (t.applyBatches batches).1.frameValues defaults frame = .ok values →
          ∀ (name : String) (x : Float), values[name]? = some (.double x) → x.isFinite = true := by
  have hstart := finite_of_build (Json.finite_of_parse? hdocument) hbuild
  have hafter := hstart.applyBatches fun batch hbatch u hu => (hbatches batch hbatch u hu).finite
  refine ⟨fun e he x hx => ?_, fun defaults frame values hdefaults hvalues name x hx => ?_⟩
  · obtain ⟨i, hi⟩ := Array.mem_iff_getElem?.mp he
    exact (hafter i e hi).last _ hx
  · have hfinite (values : SignalValues) (h : defaults.values? frame = some values) (name : String) (v : Scalar)
        (hv : values[name]? = some v) : v.Finite := by
      cases v with
      | double x => exact hdefaults values h name x hv
      | _ => exact trivial
    exact hafter.frameValues hfinite hvalues hx

/-- Two leaves with expressions, of which the first one divides by zero. -/
def quotientText : String :=
  "\x7b\"A\": \x7b\"type\": \"sensor\", \"vss2dbc\": \x7b\"signal\": \"S\", \"math\": \"x / 0\"\x7d\x7d, " ++
  "\"B\": \x7b\"type\": \"sensor\", \"vss2dbc\": \x7b\"signal\": \"T\", \"math\": \"x * 1.5\"\x7d\x7d\x7d"

theorem finite_after_batches_quotient :
    let batches : List (List (String × Scalar)) := [[("A", .integer 5), ("B", .integer 5)]]
    ∃ document t, Json.parse? quotientText = some document ∧ build document (fun _ => some 5) = .ok t ∧
      (t.applyBatches batches).1.entries.toList.map (·.last.map Scalar.kindName) = [none, some "float"] ∧
        ∀ e ∈ (t.applyBatches batches).1.entries, ∀ x, e.last = some (.double x) → x.isFinite = true := by
  intro batches
  have hrun : (Json.parse? quotientText).any (fun document =>
      (build document (fun _ => some 5)).toOption.any fun t =>
        (t.applyBatches batches).1.entries.toList.map (·.last.map Scalar.kindName) = [none, some "float"]) = true := by
    decide +kernel
  obtain ⟨document, hdocument, hrun⟩ := (Option.any_eq_true _ _).mp hrun
  obtain ⟨t, ht, hkinds⟩ := (Option.any_eq_true _ _).mp hrun
  have hfive : Scalar.Decoded (.integer 5) := by
    have hliteral : Json.ofLiteral? ⟨false, ['5'], none, none⟩ = some (.integer 5) := if_pos (by decide)
    have hinteger : int64? 5 = some 5 := by decide
    refine .inr ⟨.number ⟨false, ['5'], none, none⟩, ?_⟩
    simp only [Update.valueOfRaw?, Json.ofRaw?, hliteral, Option.bind_some, Scalar.firstFit?_eq, Scalar.ofJson?,
      hinteger, Option.map_some]
  have hdecoded : ∀ batch ∈ batches, ∀ u ∈ batch, u.2.Decoded :=
    List.forall_mem_singleton.mpr (List.forall_mem_cons.mpr ⟨hfive, List.forall_mem_singleton.mpr hfive⟩)
  obtain ⟨hentries, -⟩ := finite_after_batches hdocument (toOption_eq_some.mp ht) hdecoded
  exact ⟨document, t, hdocument, toOption_eq_some.mp ht, of_decide_eq_true hkinds, hentries⟩

end Table
end SignalBridge
