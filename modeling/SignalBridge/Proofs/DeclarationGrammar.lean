import SignalBridge.Proofs.DeclaredLayout
import SignalBridge.Proofs.DeclaredLeaves
import SignalBridge.Proofs.NearestDouble

/-! The grammar of declarations. A declaration is an object that names a signal. It may have a section for the
    transform, which is the value of `transform`, or the declaration itself if it has a member of a section. A section
    is a list of rows or an expression. What the grammar allows is accepted, and nothing else. -/

namespace SignalBridge

/-! ### The grammar -/

namespace Json
/-- The value is not `null`, and no container. -/
def IsScalar : Json → Prop
  | .boolean _ | .integer _ | .double _ | .string _ => True
  | .null | .array _ | .object _ => False

/-- A row is an object with scalars `from` and `to`. -/
def IsRow (v : Json) : Prop :=
  (∃ source, v.get? "from" = some source ∧ source.IsScalar) ∧ ∃ target, v.get? "to" = some target ∧ target.IsScalar

/-- A section is an object with either a list `mapping` of rows or a text `math`. -/
inductive IsSection : Json → Prop
  | lookup {members : List (String × Json)} {items : List Json}
      (hmapping : member? members "mapping" = some (.array items)) (hmath : member? members "math" = none)
      (hrows : ∀ item ∈ items, item.IsRow) : IsSection (.object members)
  | expression {members : List (String × Json)} {source : String} (hmapping : member? members "mapping" = none)
      (hmath : member? members "math" = some (.string source)) : IsSection (.object members)

def sectionKeys : List String := ["mapping", "math"]

/-- Where the section of a declaration stands. -/
inductive HasSection (members : List (String × Json)) : Json → Prop
  | nested {v : Json} (h : member? members "transform" = some v) : HasSection members v
  | flat (hnested : member? members "transform" = none) (hflat : ∃ key ∈ sectionKeys, (member? members key).isSome) :
      HasSection members (.object members)

/-- A declaration is an object with the name of a signal. If it has a section, this is well-formed. -/
inductive IsDeclaration : Json → Prop
  | intro {members : List (String × Json)} {signal : String}
      (hsignal : member? members "signal" = some (.string signal)) (hname : signal ≠ "")
      (hsection : ∀ v, HasSection members v → v.IsSection) : IsDeclaration (.object members)

/-- Two declarations of one signal with the same section, which is nested in the first one and flat in the second. -/
structure Flattened (nested flat : List (String × Json)) : Prop where
  signal : member? flat "signal" = member? nested "signal"
  members : ∃ members, member? nested "transform" = some (.object members) ∧
    ∀ key ∈ sectionKeys, member? flat key = member? members key
  unnested : member? flat "transform" = none
  present : ∃ key ∈ sectionKeys, (member? flat key).isSome

end Json

/-! ### Rows -/

section
variable {v item : Json} {s : Scalar} {row : LookupRow} {rows : List LookupRow} {t : Transform}

/-- What the scalars of a document stand for. Integers without a word of 64 signed bits stand for their nearest
    doubles. -/
inductive Json.Denotes : Json → Scalar → Prop
  | boolean (b : Bool) : Denotes (.boolean b) (.boolean b)
  | string (s : String) : Denotes (.string s) (.text s)
  | double (x : Float) : Denotes (.double x) (.double x)
  | word {n : ℤ} {i : Int64} (hi : i.toInt = n) : Denotes (.integer n) (.integer i)
  | beyond {n : ℤ} {x : Float} (hword : ∀ i : Int64, i.toInt ≠ n) (hx : n.natAbs < bit 1023 → Double.IsNearest n x) :
      Denotes (.integer n) (.double x)

theorem Json.denotes_of_ofJson? (h : Scalar.ofJson? v = some s) : v.Denotes s := by
  cases v with
  | null | array | object => cases h
  | boolean b =>
    obtain rfl := Option.some.inj h
    exact .boolean b
  | double x =>
    obtain rfl := Option.some.inj h
    exact .double x
  | string text =>
    obtain rfl := Option.some.inj h
    exact .string text
  | integer n =>
    rw [Scalar.ofJson?] at h
    cases hi : int64? n with
    | some i =>
      rw [hi] at h
      obtain rfl := Option.some.inj h
      exact .word (int64?_eq_some hi)
    | none =>
      rw [hi] at h
      obtain rfl := Option.some.inj h
      exact .beyond (ne_of_int64?_eq_none hi) fun hn => Double.isNearest_ofInt (log2_le_of_lt_bit hn)

theorem Scalar.exists_ofJson? : (∃ s, Scalar.ofJson? v = some s) ↔ v.IsScalar := by
  cases v with
  | integer i =>
    refine iff_of_true ?_ trivial
    rw [Scalar.ofJson?]
    cases int64? i <;> exact ⟨_, rfl⟩
  | boolean | double | string => exact iff_of_true ⟨_, rfl⟩ trivial
  | null | array | object => exact iff_of_false (fun ⟨_, h⟩ => nomatch h) id

namespace LookupRow

/-- The row holds what the scalars of an item stand for. -/
def Of (item : Json) (row : LookupRow) : Prop :=
  (∃ v, item.get? "from" = some v ∧ v.Denotes row.source) ∧ ∃ v, item.get? "to" = some v ∧ v.Denotes row.target

theorem scalarOfJson_eq_ok : scalarOfJson v = .ok s ↔ Scalar.ofJson? v = some s := by
  unfold scalarOfJson
  cases Scalar.ofJson? v with
  | none => exact ⟨nofun, nofun⟩
  | some s' => exact ⟨fun h => congrArg some (Except.ok.inj h), fun h => congrArg Except.ok (Option.some.inj h)⟩

theorem ofJson_eq_ok : ofJson item = .ok row ↔
    (item.get? "from").bind Scalar.ofJson? = some row.source ∧ (item.get? "to").bind Scalar.ofJson? = some row.target := by
  unfold ofJson
  cases item.get? "from" with
  | none => exact ⟨nofun, fun h => nomatch h.1⟩
  | some source =>
    cases item.get? "to" with
    | none => exact ⟨nofun, fun h => nomatch h.2⟩
    | some target =>
      simp only [bind_eq_ok, scalarOfJson_eq_ok, Option.bind_some]
      constructor
      · rintro ⟨s, hs, s', hs', h⟩
        obtain rfl := Except.ok.inj h
        exact ⟨hs, hs'⟩
      · rintro ⟨hs, hs'⟩
        exact ⟨_, hs, _, hs', rfl⟩

theorem of_of_ofJson (h : ofJson item = .ok row) : Of item row := by
  obtain ⟨hsource, htarget⟩ := ofJson_eq_ok.mp h
  obtain ⟨source, hfrom, hs⟩ := Option.bind_eq_some_iff.mp hsource
  obtain ⟨target, hto, hs'⟩ := Option.bind_eq_some_iff.mp htarget
  exact ⟨⟨source, hfrom, Json.denotes_of_ofJson? hs⟩, target, hto, Json.denotes_of_ofJson? hs'⟩

theorem exists_ofJson : (∃ row, ofJson item = .ok row) ↔ item.IsRow := by
  simp only [ofJson_eq_ok, Json.IsRow, ← Scalar.exists_ofJson?, Option.bind_eq_some_iff]
  constructor
  · rintro ⟨row, ⟨source, hsource, hs⟩, target, htarget, hs'⟩
    exact ⟨⟨source, hsource, _, hs⟩, target, htarget, _, hs'⟩
  · rintro ⟨⟨source, hsource, s, hs⟩, target, htarget, s', hs'⟩
    exact ⟨⟨s, s'⟩, ⟨source, hsource, hs⟩, target, htarget, hs'⟩

theorem exists_mapM_ofJson {items : List Json} :
    (∃ rows, items.mapM ofJson = .ok rows) ↔ ∀ item ∈ items, item.IsRow := by
  simp only [← exists_ofJson]
  constructor
  · rintro ⟨rows, hrows⟩ item hitem
    obtain ⟨row, -, hrow⟩ := exists_mem_of_mapM hrows hitem
    exact ⟨row, hrow⟩
  · intro h
    cases hrows : items.mapM ofJson with
    | ok rows => exact ⟨rows, rfl⟩
    | error f =>
      obtain ⟨item, hitem, hfault⟩ := exists_of_mapM_error hrows
      obtain ⟨row, hrow⟩ := h item hitem
      cases hfault.symm.trans hrow

end LookupRow

/-! ### Sections -/

namespace Transform

/-- The transform that a section spells: a row for each item of its list, in order, or its expression. -/
inductive Of (v : Json) : Transform → Prop
  | lookup {items : List Json} {rows : List LookupRow} (hmapping : v.get? "mapping" = some (.array items))
      (hrows : List.Forall₂ LookupRow.Of items rows) : Of v (.lookup rows)
  | expression {source : String} (hmath : v.get? "math" = some (.string source)) : Of v (.expression (.ofSource source))

theorem ofJson_object (members : List (String × Json)) : ofJson (.object members) =
    match Json.member? members "mapping", Json.member? members "math" with
    | some _, some _ => .error .mappingAndMath
    | none, none => .error .noMappingOrMath
    | some rows, none =>
      match rows.asArray? with
      | some rows => (rows.mapM LookupRow.ofJson).map lookup
      | none => .error .mappingNotList
    | none, some math =>
      match math.asString? with
      | some source => .ok (expression (.ofSource source))
      | none => .error .mathNotText :=
  rfl

theorem ofJson_lookup {members : List (String × Json)} {items : List Json}
    (hmapping : Json.member? members "mapping" = some (.array items)) (hmath : Json.member? members "math" = none) :
    ofJson (.object members) = (items.mapM LookupRow.ofJson).map lookup := by
  rw [ofJson_object, hmapping, hmath]
  rfl

theorem ofJson_expression {members : List (String × Json)} {source : String}
    (hmapping : Json.member? members "mapping" = none) (hmath : Json.member? members "math" = some (.string source)) :
    ofJson (.object members) = .ok (expression (.ofSource source)) := by
  rw [ofJson_object, hmapping, hmath]
  rfl

/-- What a value is that is read as a transform. -/
theorem ofJson_cases (h : ofJson v = .ok t) : ∃ members, v = .object members ∧
    ((∃ items rows, Json.member? members "mapping" = some (.array items) ∧ Json.member? members "math" = none ∧
        items.mapM LookupRow.ofJson = .ok rows ∧ t = .lookup rows) ∨
      ∃ source, Json.member? members "mapping" = none ∧ Json.member? members "math" = some (.string source) ∧
        t = .expression (.ofSource source)) := by
  cases v with
  | object members =>
    refine ⟨members, rfl, ?_⟩
    rw [ofJson_object] at h
    split at h
    · cases h
    · cases h
    next mapping hmapping hmath =>
      cases mapping with
      | array items =>
        obtain ⟨rows, hrows, rfl⟩ := map_eq_ok.mp h
        exact .inl ⟨items, rows, hmapping, hmath, hrows, rfl⟩
      | _ => cases h
    next math hmapping hmath =>
      cases math with
      | string source => exact .inr ⟨source, hmapping, hmath, (Except.ok.inj h).symm⟩
      | _ => cases h
  | _ => cases h

theorem of_of_ofJson (h : ofJson v = .ok t) : Of v t := by
  obtain ⟨members, rfl, ⟨items, rows, hmapping, -, hrows, rfl⟩ | ⟨source, -, hmath, rfl⟩⟩ := ofJson_cases h
  · exact .lookup hmapping ((forall₂_of_mapM hrows).imp fun _ _ => LookupRow.of_of_ofJson)
  · exact .expression hmath

theorem exists_ofJson : (∃ t, ofJson v = .ok t) ↔ v.IsSection := by
  constructor
  · rintro ⟨t, h⟩
    obtain ⟨members, rfl, ⟨items, rows, hmapping, hmath, hrows, -⟩ | ⟨source, hmapping, hmath, -⟩⟩ := ofJson_cases h
    · exact .lookup hmapping hmath (LookupRow.exists_mapM_ofJson.mp ⟨rows, hrows⟩)
    · exact .expression hmapping hmath
  · intro h
    cases h with
    | lookup hmapping hmath hrows =>
      obtain ⟨rows, hrows⟩ := LookupRow.exists_mapM_ofJson.mpr hrows
      exact ⟨.lookup rows, (ofJson_lookup hmapping hmath).trans (map_eq_ok.mpr ⟨rows, hrows, rfl⟩)⟩
    | expression hmapping hmath => exact ⟨_, ofJson_expression hmapping hmath⟩

/-- Of a section only the members of a section are read. -/
theorem ofJson_congr {members members' : List (String × Json)}
    (h : ∀ key ∈ Json.sectionKeys, Json.member? members key = Json.member? members' key) :
    ofJson (.object members) = ofJson (.object members') := by
  rw [ofJson_object, ofJson_object, h "mapping" (by decide), h "math" (by decide)]

end Transform

/-! ### Declarations -/

namespace Declaration
variable {members nested flat : List (String × Json)} {d : Declaration}

theorem transformOf_of_hasSection (h : Json.HasSection members v) :
    transformOf members = (Transform.ofJson v).map some := by
  unfold transformOf
  cases h with
  | nested h => rw [h]
  | flat hnested hflat =>
    have hmember : ((Json.member? members "mapping").isSome || (Json.member? members "math").isSome) = true := by
      simpa [Json.sectionKeys] using hflat
    rw [hnested]
    exact if_pos hmember

theorem transformOf_of_not_hasSection (h : ∀ v, ¬Json.HasSection members v) : transformOf members = .ok none := by
  unfold transformOf
  cases hnested : Json.member? members "transform" with
  | some v => exact absurd (.nested hnested) (h v)
  | none =>
    refine if_neg fun hmember => h _ (.flat hnested ?_)
    simpa [Json.sectionKeys] using hmember

theorem exists_transformOf :
    (∃ t, transformOf members = .ok t) ↔ ∀ v, Json.HasSection members v → v.IsSection := by
  constructor
  · rintro ⟨t, h⟩ v hv
    rw [transformOf_of_hasSection hv] at h
    obtain ⟨t, ht, -⟩ := map_eq_ok.mp h
    exact Transform.exists_ofJson.mp ⟨t, ht⟩
  · intro h
    by_cases hsection : ∃ v, Json.HasSection members v
    · obtain ⟨v, hv⟩ := hsection
      obtain ⟨t, ht⟩ := Transform.exists_ofJson.mpr (h v hv)
      exact ⟨some t, (transformOf_of_hasSection hv).trans (map_eq_ok.mpr ⟨t, ht, rfl⟩)⟩
    · exact ⟨none, transformOf_of_not_hasSection (not_exists.mp hsection)⟩

theorem ofJson_object_eq_ok : ofJson (.object members) = .ok d ↔
    Json.member? members "signal" = some (.string d.signal) ∧ d.signal ≠ "" ∧
      transformOf members = .ok d.transform := by
  have hstring {v? : Option Json} {s : String} : v?.bind Json.asString? = some s ↔ v? = some (.string s) := by
    rw [Option.bind_eq_some_iff]
    refine ⟨fun ⟨v, hv, hs⟩ => ?_, fun h => ⟨_, h, rfl⟩⟩
    cases v with
    | string s' => rw [hv, Option.some.inj hs]
    | _ => cases hs
  rw [ofJson_object, ← hstring]
  cases hsignal : (Json.member? members "signal").bind Json.asString? with
  | none => exact ⟨nofun, fun h => nomatch h.1⟩
  | some signal =>
    by_cases hname : signal = ""
    · subst hname
      exact ⟨nofun, fun h => absurd (Option.some.inj h.1).symm h.2.1⟩
    · split
      next heq => cases heq
      next heq => exact absurd (Option.some.inj heq) hname
      next signal' _ heq =>
        obtain rfl := Option.some.inj heq
        rw [bind_eq_ok]
        constructor
        · rintro ⟨t, ht, h⟩
          obtain rfl := Except.ok.inj h
          exact ⟨rfl, hname, ht⟩
        · rintro ⟨heq, -, ht⟩
          obtain rfl := Option.some.inj heq
          exact ⟨_, ht, rfl⟩

theorem exists_ofJson : (∃ d, ofJson v = .ok d) ↔ v.IsDeclaration := by
  constructor
  · rintro ⟨d, h⟩
    cases v with
    | object members =>
      obtain ⟨hsignal, hname, ht⟩ := ofJson_object_eq_ok.mp h
      exact .intro hsignal hname (exists_transformOf.mp ⟨_, ht⟩)
    | _ => cases h
  · rintro ⟨hsignal, hname, hsection⟩
    obtain ⟨t, ht⟩ := exists_transformOf.mpr hsection
    exact ⟨⟨_, t⟩, ofJson_object_eq_ok.mpr ⟨hsignal, hname, ht⟩⟩

theorem ofJson_of_flattened (h : Json.Flattened nested flat) : ofJson (.object flat) = ofJson (.object nested) := by
  obtain ⟨members, hnested, hmembers⟩ := h.members
  have htransform : transformOf flat = transformOf nested := by
    rw [transformOf_of_hasSection (.flat h.unnested h.present), transformOf_of_hasSection (.nested hnested),
      Transform.ofJson_congr hmembers]
  rw [ofJson_object, ofJson_object, h.signal, htransform]

theorem transform_of_ofLeaf {leaf : Leaf} {d? : Option Declaration}
    (hv : Json.member? leaf.members declarationKey = some v) (h : ofLeaf leaf = .ok d?) :
    ∃ d members, d? = some d ∧ v = .object members ∧ Json.member? members "signal" = some (.string d.signal) ∧
      (∀ w, Json.HasSection members w → ∃ t, d.transform = some t ∧ Transform.Of w t) ∧
      ((∀ w, ¬Json.HasSection members w) → d.transform = none) := by
  obtain ⟨d, rfl, hd⟩ := exists_of_ofLeaf hv h
  cases v with
  | object members =>
    obtain ⟨hsignal, -, ht⟩ := ofJson_object_eq_ok.mp hd
    refine ⟨d, members, rfl, rfl, hsignal, fun w hw => ?_, fun hnone => ?_⟩
    · rw [transformOf_of_hasSection hw] at ht
      obtain ⟨t, htransform, hsome⟩ := map_eq_ok.mp ht
      exact ⟨t, hsome.symm, Transform.of_of_ofJson htransform⟩
    · rw [transformOf_of_not_hasSection hnone] at ht
      exact (Except.ok.inj ht).symm
  | _ => cases hd

end Declaration

namespace Table
variable {frameOf? : String → Option Nat} {t : Table} {leaf flatLeaf : Leaf} {nested flat : List (String × Json)}

/-- Whether a leaf is let pass depends on its declaration only. -/
theorem exists_insertLeaf : (∃ t', t.insertLeaf frameOf? leaf = .ok t') ↔ ∃ d?, Declaration.ofLeaf leaf = .ok d? := by
  constructor
  · rintro ⟨t', h⟩
    obtain ⟨d?, hd, -⟩ := bind_eq_ok.mp h
    exact ⟨d?, hd⟩
  · rintro ⟨d?, hd⟩
    cases d? with
    | none => exact ⟨t, bind_eq_ok.mpr ⟨none, hd, rfl⟩⟩
    | some d =>
      cases hframe : frameOf? d.signal with
      | none => exact ⟨t, bind_eq_ok.mpr ⟨some d, hd, by simp only [hframe]; rfl⟩⟩
      | some frame => exact ⟨_, bind_eq_ok.mpr ⟨some d, hd, by simp only [hframe]; rfl⟩⟩

theorem exists_insertLeaf_iff_isDeclaration (hv : Json.member? leaf.members declarationKey = some v) :
    (∃ t', t.insertLeaf frameOf? leaf = .ok t') ↔ v.IsDeclaration := by
  rw [exists_insertLeaf, Declaration.ofLeaf_of_member hv, ← Declaration.exists_ofJson]
  cases Declaration.ofJson v with
  | ok d => exact iff_of_true ⟨_, rfl⟩ ⟨d, rfl⟩
  | error f => exact iff_of_false nofun nofun

theorem insertLeaf_of_flattened (hflattened : Json.Flattened nested flat) (hpath : flatLeaf.path = leaf.path)
    (hnested : Json.member? leaf.members declarationKey = some (.object nested))
    (hflat : Json.member? flatLeaf.members declarationKey = some (.object flat)) :
    t.insertLeaf frameOf? flatLeaf = t.insertLeaf frameOf? leaf := by
  have hofLeaf : Declaration.ofLeaf flatLeaf = Declaration.ofLeaf leaf := by
    rw [Declaration.ofLeaf_of_member hflat, Declaration.ofLeaf_of_member hnested,
      Declaration.ofJson_of_flattened hflattened, hpath]
  rw [insertLeaf, insertLeaf, hofLeaf, hpath]

/-- A leaf with a declaration is let pass exactly if the declaration is one by the grammar. It then declares the
    signal that is named, with the transform that the section spells, or without one if there is no section. A leaf
    with the same section in the other place has the same effect, be it an entry or a fault. -/
theorem insertLeaf_of_grammar (hv : Json.member? leaf.members declarationKey = some v) :
    (∀ (frameOf? : String → Option Nat) (t : Table), (∃ t', t.insertLeaf frameOf? leaf = .ok t') ↔ v.IsDeclaration) ∧
    (∀ d?, Declaration.ofLeaf leaf = .ok d? → ∃ d members, d? = some d ∧ v = .object members ∧
      Json.member? members "signal" = some (.string d.signal) ∧
      (∀ w, Json.HasSection members w → ∃ t, d.transform = some t ∧ Transform.Of w t) ∧
      ((∀ w, ¬Json.HasSection members w) → d.transform = none)) ∧
    ∀ nested flat (flatLeaf : Leaf), v = .object nested → Json.Flattened nested flat → flatLeaf.path = leaf.path →
      Json.member? flatLeaf.members declarationKey = some (.object flat) →
      ∀ (frameOf? : String → Option Nat) (t : Table), t.insertLeaf frameOf? flatLeaf = t.insertLeaf frameOf? leaf := by
  refine ⟨fun _ _ => exists_insertLeaf_iff_isDeclaration hv, fun _ => Declaration.transform_of_ofLeaf hv, ?_⟩
  rintro nested flat flatLeaf rfl hflattened hpath hflat frameOf? t
  exact insertLeaf_of_flattened hflattened hpath hv hflat

/-- A leaf with a declaration of the signal `DoorOpen`, with some further members. -/
def doorLeaf (members : List (String × Json)) : Leaf :=
  { path := "Vehicle.Open", members := [("vss2dbc", .object (("signal", .string "DoorOpen") :: members))] }

/-- A row that turns `true` into `1`. -/
def openRow : Json :=
  .object [("from", .boolean true), ("to", .integer 1)]

theorem eq_of_of_openRow (h : LookupRow.Of openRow row) : row = ⟨.boolean true, .integer 1⟩ := by
  obtain ⟨source, target⟩ := row
  obtain ⟨⟨v, hv, hsource⟩, w, hw, htarget⟩ := h
  obtain rfl := Option.some.inj hv
  obtain rfl := Option.some.inj hw
  have hone : (1 : Int64).toInt = 1 := by decide
  cases hsource
  cases htarget with
  | word hi => rw [Int64.toInt_inj.mp (hi.trans hone.symm)]
  | beyond hword => exact absurd hone (hword 1)

/-- A list of rows is accepted in both places, and its row holds `true` and `1`. Beside a `math` it is not, even if
    that is `null`. -/
theorem insertLeaf_of_grammar_door :
    let nested := doorLeaf [("transform", .object [("mapping", .array [openRow])])]
    let flat := doorLeaf [("mapping", .array [openRow])]
    let both := doorLeaf [("mapping", .array [openRow]), ("math", .null)]
    let frameOf? : String → Option Nat := fun _ => some 258
    (∃ t, empty.insertLeaf frameOf? nested = .ok t) ∧
      (∃ d, Declaration.ofLeaf nested = .ok (some d) ∧ d.transform = some (.lookup [⟨.boolean true, .integer 1⟩])) ∧
      empty.insertLeaf frameOf? flat = empty.insertLeaf frameOf? nested ∧
      ¬∃ t, empty.insertLeaf frameOf? both = .ok t := by
  intro nested flat both frameOf?
  have hmapping : Json.member? [("mapping", Json.array [openRow])] "mapping" = some (.array [openRow]) := rfl
  have hrow : openRow.IsRow := ⟨⟨_, rfl, trivial⟩, _, rfl, trivial⟩
  have hnested : Json.member? nested.members declarationKey = some _ := rfl
  have hboth : Json.member? both.members declarationKey = some _ := rfl
  obtain ⟨haccepted, hdeclared, hflattened⟩ := insertLeaf_of_grammar hnested
  refine ⟨(haccepted frameOf? empty).mpr ?_, ?_, ?_, ?_⟩
  · refine .intro rfl (by decide) fun w hw => ?_
    cases hw with
    | nested h =>
      obtain rfl := Option.some.inj h
      exact .lookup hmapping rfl (List.forall_mem_singleton.mpr hrow)
    | flat hnone => cases hnone
  · obtain ⟨d, members, heq, hmembers, -, hsection, -⟩ := hdeclared _ rfl
    obtain rfl := Json.object.inj hmembers
    obtain ⟨t, ht, hof⟩ := hsection _ (.nested rfl)
    obtain rfl := Option.some.inj heq
    refine ⟨_, rfl, ht.trans (congrArg some ?_)⟩
    cases hof with
    | expression hmath => cases hmath
    | lookup hitems hrows =>
      obtain rfl := Json.array.inj (Option.some.inj hitems)
      obtain ⟨r, _, hr, hnil, rfl⟩ := List.forall₂_cons_left_iff.mp hrows
      obtain rfl := List.forall₂_nil_left_iff.mp hnil
      rw [eq_of_of_openRow hr]
  · refine hflattened _ [("signal", .string "DoorOpen"), ("mapping", .array [openRow])] flat rfl ?_ rfl rfl frameOf? empty
    exact ⟨rfl, ⟨_, rfl, List.forall_mem_cons.mpr ⟨rfl, List.forall_mem_singleton.mpr rfl⟩⟩, rfl,
      "mapping", by decide, rfl⟩
  · rw [(insertLeaf_of_grammar hboth).1]
    rintro ⟨-, -, hsection⟩
    cases hsection _ (.flat rfl ⟨"mapping", by decide, rfl⟩) with
    | lookup _ hmath => cases hmath
    | expression hmapping => cases hmapping
end Table
end
end SignalBridge
