import Mathlib.Data.List.Induction
import Mathlib.Data.List.Lex
import SignalBridge.Proofs.TableContent

/-! The leaves of a mapping document by their places. A place is the list of the numbers of the members on the way
    from the root, so places in lexicographic order are in document order. The table of a document has an entry
    for each place where a leaf declares a signal that some frame carries, and for no other. -/

namespace SignalBridge

/-! ### Places -/

/-- The text under `type`, if there is one. -/
def kind? (members : List (String × Json)) : Option String :=
  (Json.member? members "type").bind Json.asString?

/-- The types of leaves. -/
def leafKinds : List String :=
  ["sensor", "actuator", "attribute"]

/-- The leaf at a place below a node. It is reached through the `children` of branches and the members of groups
    only, and its path is made of the names of the branches above it and its own name. -/
inductive LeafAt : List String → String → Json → List Nat → Leaf → Prop
  | leaf {branches : List String} {name kind : String} {members : List (String × Json)} (hkind : kind? members = some kind)
    (hleaf : kind ∈ leafKinds) :
    LeafAt branches name (.object members) [] { path := ".".intercalate (branches ++ [name]), members }
  | child {branches : List String} {name key : String} {members children : List (String × Json)} {v : Json} {i : Nat}
    {place : List Nat} {leaf : Leaf} (hkind : kind? members = some "branch")
    (hchildren : Json.member? members "children" = some (.object children)) (hi : children[i]? = some (key, v))
    (below : LeafAt (branches ++ [name]) key v place leaf) : LeafAt branches name (.object members) (i :: place) leaf
  | member {branches : List String} {name key : String} {members : List (String × Json)} {v : Json} {i : Nat}
    {place : List Nat} {leaf : Leaf} (hkind : ∀ kind, kind? members = some kind → kind ≠ "branch" ∧ kind ∉ leafKinds)
    (hi : members[i]? = some (key, v)) (below : LeafAt branches key v place leaf) :
    LeafAt branches name (.object members) (i :: place) leaf

/-- The leaf at a place below one of some members, which are numbered from `first` on. -/
def LeafBelow (branches : List String) (first : Nat) (members : List (String × Json)) (place : List Nat)
    (leaf : Leaf) : Prop :=
  ∃ i rest key v, place = (first + i) :: rest ∧ members[i]? = some (key, v) ∧ LeafAt branches key v rest leaf

section
variable {branches : List String} {name key : String} {v : Json} {members : List (String × Json)} {place : List Nat}
  {leaf : Leaf}

theorem nodeKind_def : nodeKind members =
    match kind? members with
    | some "branch" => .branch
    | some "sensor" | some "actuator" | some "attribute" => .leaf
    | _ => .group :=
  rfl

theorem nodeKind_eq : nodeKind members =
    if kind? members = some "branch" then .branch
    else if ∃ kind ∈ leafKinds, kind? members = some kind then .leaf else .group := by
  rw [nodeKind_def]
  simp only [leafKinds, List.mem_cons, List.not_mem_nil, or_false, exists_eq_or_imp, exists_eq_left]
  split <;> simp_all

theorem leafAt_of_leaf {kind : String} (hkind : kind? members = some kind) (hleaf : kind ∈ leafKinds) :
    LeafAt branches name (.object members) place leaf ↔
      place = [] ∧ leaf = { path := ".".intercalate (branches ++ [name]), members } := by
  constructor
  · intro h
    cases h with
    | leaf => exact ⟨rfl, rfl⟩
    | child hbranch =>
      obtain rfl := Option.some.inj (hkind.symm.trans hbranch)
      exact absurd hleaf (by decide)
    | member hgroup => exact absurd hleaf (hgroup kind hkind).2
  · rintro ⟨rfl, rfl⟩
    exact .leaf hkind hleaf

theorem leafAt_of_branch (hkind : kind? members = some "branch") :
    LeafAt branches name (.object members) place leaf ↔ ∃ children,
      Json.member? members "children" = some (.object children) ∧
        LeafBelow (branches ++ [name]) 0 children place leaf := by
  constructor
  · intro h
    cases h with
    | leaf hleaf hmem =>
      obtain rfl := Option.some.inj (hkind.symm.trans hleaf)
      exact absurd hmem (by decide)
    | child _ hchildren hi below => exact ⟨_, hchildren, _, _, _, _, by rw [Nat.zero_add], hi, below⟩
    | member hgroup => exact absurd rfl (hgroup "branch" hkind).1
  · rintro ⟨children, hchildren, i, rest, key, v, rfl, hi, below⟩
    rw [Nat.zero_add]
    exact .child hkind hchildren hi below

theorem leafAt_of_group (hkind : ∀ kind, kind? members = some kind → kind ≠ "branch" ∧ kind ∉ leafKinds) :
    LeafAt branches name (.object members) place leaf ↔ LeafBelow branches 0 members place leaf := by
  constructor
  · intro h
    cases h with
    | leaf hleaf hmem => exact absurd hmem (hkind _ hleaf).2
    | child hbranch => exact absurd rfl (hkind _ hbranch).1
    | member _ hi below => exact ⟨_, _, _, _, by rw [Nat.zero_add], hi, below⟩
  · rintro ⟨i, rest, key, v, rfl, hi, below⟩
    rw [Nat.zero_add]
    exact .member hkind hi below

theorem leafBelow_cons {first : Nat} : LeafBelow branches first ((key, v) :: members) place leaf ↔
    (∃ rest, place = first :: rest ∧ LeafAt branches key v rest leaf) ∨
      LeafBelow branches (first + 1) members place leaf := by
  constructor
  · rintro ⟨i, rest, key', v', rfl, hi, below⟩
    cases i with
    | zero =>
      obtain ⟨rfl, rfl⟩ := Prod.mk.inj (Option.some.inj hi)
      exact .inl ⟨rest, rfl, below⟩
    | succ i => exact .inr ⟨i, rest, key', v', by rw [Nat.add_right_comm, Nat.add_assoc], hi, below⟩
  · rintro (⟨rest, rfl, below⟩ | ⟨i, rest, key', v', rfl, hi, below⟩)
    · exact ⟨0, rest, key, v, rfl, rfl, below⟩
    · exact ⟨i + 1, rest, key', v', by rw [Nat.add_right_comm, Nat.add_assoc], hi, below⟩

end

/-! ### Listings -/

/-- What stands at places, listed in the order of the places. -/
def Listed {α : Type} (At : List Nat → α → Prop) (l : List α) : Prop :=
  ∃ placed : List (List Nat × α), placed.map (·.2) = l ∧ (placed.map (·.1)).Pairwise (· < ·) ∧
    ∀ place x, (place, x) ∈ placed ↔ At place x

section
variable {α β : Type} {At At' : List Nat → α → Prop} {l l' : List α}

theorem Listed.congr (h : Listed At l) (hiff : ∀ place x, At place x ↔ At' place x) : Listed At' l := by
  obtain ⟨placed, hl, hascending, hmem⟩ := h
  exact ⟨placed, hl, hascending, fun place x => (hmem place x).trans (hiff place x)⟩

theorem listed_nil (h : ∀ place x, ¬At place x) : Listed At [] :=
  ⟨[], rfl, .nil, fun place x => iff_of_false (by simp) (h place x)⟩

theorem listed_singleton (x : α) : Listed (fun place y => place = [] ∧ y = x) [x] :=
  ⟨[([], x)], rfl, List.pairwise_singleton _ _, fun place y => by simp⟩

/-- The same one level further down, below a member with the given number. -/
theorem Listed.below (h : Listed At l) (i : Nat) : Listed (fun place x => ∃ rest, place = i :: rest ∧ At rest x) l := by
  obtain ⟨placed, rfl, hascending, hmem⟩ := h
  refine ⟨placed.map fun p => (i :: p.1, p.2), ?_, ?_, fun place x => ?_⟩
  · rw [List.map_map]
    rfl
  · rw [List.pairwise_map] at hascending
    rw [List.pairwise_map, List.pairwise_map]
    exact hascending.imp fun h => List.Lex.cons h
  · rw [List.mem_map]
    constructor
    · rintro ⟨⟨rest, y⟩, hp, heq⟩
      obtain ⟨rfl, rfl⟩ := Prod.mk.inj heq
      exact ⟨rest, rfl, (hmem rest y).mp hp⟩
    · rintro ⟨rest, rfl, hx⟩
      exact ⟨(rest, x), (hmem rest x).mpr hx, rfl⟩

theorem Listed.append (h : Listed At l) (h' : Listed At' l')
    (hlt : ∀ place x place' x', At place x → At' place' x' → place < place') :
    Listed (fun place x => At place x ∨ At' place x) (l ++ l') := by
  obtain ⟨placed, rfl, hascending, hmem⟩ := h
  obtain ⟨placed', rfl, hascending', hmem'⟩ := h'
  refine ⟨placed ++ placed', List.map_append, ?_, fun place x => ?_⟩
  · rw [List.map_append, List.pairwise_append]
    refine ⟨hascending, hascending', fun place hplace place' hplace' => ?_⟩
    obtain ⟨p, hp, rfl⟩ := List.mem_map.mp hplace
    obtain ⟨p', hp', rfl⟩ := List.mem_map.mp hplace'
    exact hlt _ p.2 _ p'.2 ((hmem _ _).mp hp) ((hmem' _ _).mp hp')
  · rw [List.mem_append, hmem, hmem']

theorem Listed.filterMap (h : Listed At l) (f : α → Option β) :
    Listed (fun place y => ∃ x, At place x ∧ f x = some y) (l.filterMap f) := by
  obtain ⟨placed, rfl, hascending, hmem⟩ := h
  refine ⟨placed.filterMap fun p => (f p.2).map (p.1, ·), ?_, ?_, fun place y => ?_⟩
  · rw [List.map_filterMap, List.filterMap_map]
    congr 1
    funext p
    cases h : f p.2 <;> simp [h]
  · rw [List.pairwise_map] at hascending ⊢
    refine hascending.filterMap _ fun p p' hlt q hq q' hq' => ?_
    obtain ⟨y, -, rfl⟩ := Option.map_eq_some_iff.mp hq
    obtain ⟨y', -, rfl⟩ := Option.map_eq_some_iff.mp hq'
    exact hlt
  · rw [List.mem_filterMap]
    constructor
    · rintro ⟨⟨place', x⟩, hp, heq⟩
      obtain ⟨y', hy, heq⟩ := Option.map_eq_some_iff.mp heq
      obtain ⟨rfl, rfl⟩ := Prod.mk.inj heq
      exact ⟨x, (hmem _ _).mp hp, hy⟩
    · rintro ⟨x, hx, hy⟩
      exact ⟨(place, x), (hmem _ _).mpr hx, Option.map_eq_some_iff.mpr ⟨y, hy, rfl⟩⟩

end

/-! ### The leaves of a document -/

/-- What paths below some branches begin with. -/
def pathAbove (branches : List String) : String :=
  branches.foldl (fun above name => above ++ name ++ ".") ""

theorem pathAbove_append (branches : List String) (name : String) :
    pathAbove (branches ++ [name]) = pathAbove branches ++ name ++ "." :=
  List.foldl_concat ..

theorem pathAbove_name (branches : List String) (name : String) :
    pathAbove branches ++ name = ".".intercalate (branches ++ [name]) := by
  induction branches using List.reverseRecOn generalizing name with
  | nil => simp [pathAbove]
  | append_singleton branches branch ih =>
    rw [pathAbove_append, ih, String.intercalate_append_of_ne_nil (List.concat_ne_nil _ _) (List.cons_ne_nil _ _),
      String.intercalate_singleton]

theorem member?_cons {name key : String} {v : Json} {members : List (String × Json)} :
    Json.member? ((key, v) :: members) name = if key = name then some v else Json.member? members name := by
  rw [Json.member?, List.lookup_cons]
  by_cases hkey : key = name
  · simp [hkey]
  · simp [hkey, beq_false_of_ne (Ne.symm hkey), Json.member?]

-- By recursion on the document, with the branches above as a parameter that grows on the way down.
mutual

theorem listed_leaves (branches : List String) (name : String) : (v : Json) →
    Listed (LeafAt branches name v) (leaves (pathAbove branches) name v)
  | .object members => by
    rw [leaves, nodeKind_eq]
    by_cases hbranch : kind? members = some "branch"
    · rw [if_pos hbranch, ← pathAbove_append]
      exact (listed_childLeaves (branches ++ [name]) members).congr fun _ _ => (leafAt_of_branch hbranch).symm
    rw [if_neg hbranch]
    by_cases hleaf : ∃ kind ∈ leafKinds, kind? members = some kind
    · obtain ⟨kind, hmem, hkind⟩ := hleaf
      rw [if_pos ⟨kind, hmem, hkind⟩, pathAbove_name]
      exact (listed_singleton _).congr fun _ _ => (leafAt_of_leaf hkind hmem).symm
    · rw [if_neg hleaf]
      have hgroup (kind : String) (hkind : kind? members = some kind) : kind ≠ "branch" ∧ kind ∉ leafKinds :=
        ⟨fun heq => hbranch (heq ▸ hkind), fun hmem => hleaf ⟨kind, hmem, hkind⟩⟩
      exact (listed_memberLeaves branches 0 members).congr fun _ _ => (leafAt_of_group hgroup).symm
  | .null | .boolean _ | .integer _ | .double _ | .string _ | .array _ => listed_nil fun _ _ => nofun

theorem listed_childLeaves (branches : List String) : (members : List (String × Json)) →
    Listed (fun place leaf => ∃ children, Json.member? members "children" = some (.object children) ∧
      LeafBelow branches 0 children place leaf) (childLeaves (pathAbove branches) members)
  | [] => listed_nil fun _ _ => by simp [Json.member?]
  | (key, .object children) :: members => by
    simp only [childLeaves, member?_cons]
    split
    · refine (listed_memberLeaves branches 0 children).congr fun place leaf => ?_
      simp
    · exact listed_childLeaves branches members
  | (key, .null) :: members | (key, .boolean _) :: members | (key, .integer _) :: members
  | (key, .double _) :: members | (key, .string _) :: members | (key, .array _) :: members => by
    simp only [childLeaves, member?_cons]
    split
    · exact listed_nil fun place leaf => by simp
    · exact listed_childLeaves branches members

theorem listed_memberLeaves (branches : List String) (first : Nat) : (members : List (String × Json)) →
    Listed (LeafBelow branches first members) (memberLeaves (pathAbove branches) members)
  | [] => listed_nil fun _ _ => by simp [LeafBelow]
  | (key, v) :: members => by
    rw [memberLeaves]
    refine (((listed_leaves branches key v).below first).append (listed_memberLeaves branches (first + 1) members)
      ?_).congr fun _ _ => leafBelow_cons.symm
    rintro _ _ _ _ ⟨rest, rfl, -⟩ ⟨i, rest', _, _, rfl, -, -⟩
    exact List.Lex.rel (by omega)

end

/-! ### The entries of a table -/

/-- The leaf at a place of a document declares a signal that a frame carries. -/
def DeclaresAt (document : Json) (frameOf? : String → Option Nat) (place : List Nat) (leaf : Leaf) (signal : String)
    (frame : Nat) : Prop :=
  LeafAt [] "" document place leaf ∧
    (∃ declaration, Json.member? leaf.members declarationKey = some declaration ∧
      (declaration.get? "signal").bind Json.asString? = some signal) ∧
    frameOf? signal = some frame

namespace Declaration
variable {v : Json} {d : Declaration} {leaf : Leaf}

theorem ofJson_object (members : List (String × Json)) : ofJson (.object members) =
    match (Json.member? members "signal").bind Json.asString? with
    | none | some "" => .error .noSignal
    | some signal => do return { signal, transform := ← transformOf members } :=
  rfl

theorem signal_of_ofJson (h : ofJson v = .ok d) : (v.get? "signal").bind Json.asString? = some d.signal := by
  cases v with
  | object members =>
    rw [ofJson_object] at h
    split at h
    · cases h
    · cases h
    next signal _ hsignal =>
      obtain ⟨transform, -, h⟩ := bind_eq_ok.mp h
      obtain rfl := Except.ok.inj h
      exact hsignal
  | _ => cases h

theorem ofLeaf_of_member (hv : Json.member? leaf.members declarationKey = some v) : ofLeaf leaf =
    match ofJson v with
    | .ok d => .ok (some d)
    | .error f => .error (.declaration leaf.path f) := by
  unfold ofLeaf
  simp only [hv]
  cases ofJson v <;> rfl

theorem ofLeaf_eq_some (h : ofLeaf leaf = .ok (some d)) :
    ∃ v, Json.member? leaf.members declarationKey = some v ∧ ofJson v = .ok d := by
  cases hv : Json.member? leaf.members declarationKey with
  | none => simp [ofLeaf, hv] at h
  | some v =>
    rw [ofLeaf_of_member hv] at h
    split at h
    next d' hd => exact ⟨v, rfl, Option.some.inj (Except.ok.inj h) ▸ hd⟩
    · cases h

/-- A leaf with a declaration that is well-formed declares something. -/
theorem exists_of_ofLeaf {d? : Option Declaration} (hv : Json.member? leaf.members declarationKey = some v)
    (h : ofLeaf leaf = .ok d?) : ∃ d, d? = some d ∧ ofJson v = .ok d := by
  rw [ofLeaf_of_member hv] at h
  split at h
  next d hd => exact ⟨d, (Except.ok.inj h).symm, hd⟩
  · cases h

end Declaration

namespace Table
variable {document : Json} {frameOf? : String → Option Nat} {t : Table} {leaf : Leaf} {path : String} {e : Entry}

theorem declared?_eq_some : declared? frameOf? leaf = some (path, e) ↔
    Declaration.ofLeaf leaf = .ok (some { signal := e.signal, transform := e.transform }) ∧
      frameOf? e.signal = some e.frame ∧ leaf.path = path ∧ e.last = none := by
  unfold declared?
  constructor
  · intro h
    split at h
    next d hd =>
      obtain ⟨frame, hframe, heq⟩ := Option.map_eq_some_iff.mp h
      obtain ⟨rfl, rfl⟩ := Prod.mk.inj heq
      exact ⟨hd, hframe, rfl, rfl⟩
    · cases h
  · rintro ⟨hd, hframe, rfl, hlast⟩
    simp only [hd, hframe, Option.map_some, ← hlast]

/-- Where a table can be made from leaves, all their declarations are well-formed. -/
theorem exists_ofLeaf {t' : Table} {leaves : List Leaf} (hs : leaves.foldlM (insertLeaf frameOf?) t = .ok t')
    (hleaf : leaf ∈ leaves) : ∃ d?, Declaration.ofLeaf leaf = .ok d? := by
  induction leaves generalizing t with
  | nil => cases hleaf
  | cons first leaves ih =>
    rw [List.foldlM_cons] at hs
    obtain ⟨t₁, h₁, hs⟩ := bind_eq_ok.mp hs
    rcases List.mem_cons.mp hleaf with rfl | hleaf
    · obtain ⟨d?, hd, -⟩ := bind_eq_ok.mp h₁
      exact ⟨d?, hd⟩
    · exact ih hs hleaf

/-- The table of a document has one entry for each place where a leaf declares a signal that some frame carries,
    and no others. The entries are numbered in document order, and each is put in under the path of its leaf,
    with the signal and the transform that are declared there, the frame that carries the signal, and no value. -/
theorem entries_of_build (h : build document frameOf? = .ok t) :
    ∃ placed : List (List Nat × String × Entry),
      Holds t (placed.map (·.2)) ∧ (placed.map (·.1)).Pairwise (· < ·) ∧
        (∀ place, place ∈ placed.map (·.1) ↔ ∃ leaf signal frame, DeclaresAt document frameOf? place leaf signal frame) ∧
        ∀ place path e, (place, path, e) ∈ placed → ∃ leaf, DeclaresAt document frameOf? place leaf e.signal e.frame ∧
          leaf.path = path ∧ e.last = none ∧
          Declaration.ofLeaf leaf = .ok (some { signal := e.signal, transform := e.transform }) := by
  obtain ⟨placed, hentries, hascending, hmem⟩ := (listed_leaves [] "" document).filterMap (declared? frameOf?)
  have hdeclares {place : List Nat} {path : String} {e : Entry} (hplace : (place, path, e) ∈ placed) :
      ∃ leaf, DeclaresAt document frameOf? place leaf e.signal e.frame ∧ leaf.path = path ∧ e.last = none ∧
        Declaration.ofLeaf leaf = .ok (some { signal := e.signal, transform := e.transform }) := by
    obtain ⟨leaf, hleaf, hdeclared⟩ := (hmem _ _).mp hplace
    obtain ⟨hofLeaf, hframe, hpath, hlast⟩ := declared?_eq_some.mp hdeclared
    obtain ⟨v, hv, hofJson⟩ := Declaration.ofLeaf_eq_some hofLeaf
    exact ⟨leaf, ⟨hleaf, ⟨v, hv, Declaration.signal_of_ofJson hofJson⟩, hframe⟩, hpath, hlast, hofLeaf⟩
  refine ⟨placed, hentries ▸ holds_build h, hascending, fun place => ⟨fun hplace => ?_, ?_⟩, fun _ _ _ => hdeclares⟩
  · obtain ⟨⟨_, path, e⟩, hx, rfl⟩ := List.mem_map.mp hplace
    obtain ⟨leaf, hdeclaresAt, -⟩ := hdeclares hx
    exact ⟨leaf, e.signal, e.frame, hdeclaresAt⟩
  · -- The declaration at a place was found well-formed, since otherwise there would be no table.
    rintro ⟨leaf, signal, frame, hleaf, ⟨v, hv, hsignal⟩, hframe⟩
    obtain ⟨allPlaced, hall, -, hmemAll⟩ := listed_leaves [] "" document
    have hmemLeaf : leaf ∈ leaves "" "" document := by
      have : leaf ∈ allPlaced.map (·.2) := List.mem_map.mpr ⟨(place, leaf), (hmemAll _ _).mpr hleaf, rfl⟩
      rwa [hall] at this
    obtain ⟨d?, hofLeaf⟩ := exists_ofLeaf h hmemLeaf
    obtain ⟨d, rfl, hofJson⟩ := Declaration.exists_of_ofLeaf hv hofLeaf
    obtain rfl : signal = d.signal := Option.some.inj (hsignal.symm.trans (Declaration.signal_of_ofJson hofJson))
    let e : Entry := { signal := d.signal, frame, transform := d.transform, last := none }
    have hx : (place, leaf.path, e) ∈ placed :=
      (hmem _ _).mpr ⟨leaf, hleaf, declared?_eq_some.mpr ⟨hofLeaf, hframe, rfl, rfl⟩⟩
    exact List.mem_map.mpr ⟨_, hx, rfl⟩

/-- A branch with a group, which has a leaf in it, and with a leaf whose signal no frame carries. -/
def groupedDocument : Json :=
  let leaf (signal : String) : Json :=
    .object [("type", .string "actuator"), ("vss2dbc", .object [("signal", .string signal)])]
  .object [("Vehicle", .object [("type", .string "branch"),
    ("children", .object [("Doors", .object [("Open", leaf "DoorOpen")]), ("Speed", leaf "Velocity")])])]

theorem entries_of_build_grouped :
    let frameOf? (signal : String) : Option Nat := if signal = "DoorOpen" then some 258 else none
    let e : Entry := { signal := "DoorOpen", frame := 258, transform := none, last := none }
    let t := empty.insert "Vehicle.Open" e
    build groupedDocument frameOf? = .ok t ∧ ∃ placed : List (List Nat × String × Entry),
      Holds t (placed.map (·.2)) ∧ placed.length = 1 ∧ [0, 0, 0] ∈ placed.map (·.1) := by
  intro frameOf? e t
  have h : build groupedDocument frameOf? = .ok t := rfl
  obtain ⟨placed, hholds, -, hplaces, -⟩ := entries_of_build h
  let members : List (String × Json) :=
    [("type", .string "actuator"), ("vss2dbc", .object [("signal", .string "DoorOpen")])]
  have hleaf : LeafAt ["Vehicle"] "Open" (.object members) [] { path := "Vehicle.Open", members } :=
    .leaf rfl (by decide)
  have hat : LeafAt [] "" groupedDocument [0, 0, 0] { path := "Vehicle.Open", members } :=
    .member (by decide) rfl (.child rfl rfl rfl (.member (by decide) rfl hleaf))
  have hlength : placed.length = 1 := by
    have := congrArg List.length hholds.entries
    simpa [t, insert, empty] using this.symm
  exact ⟨h, placed, hholds, hlength, (hplaces _).mpr ⟨_, "DoorOpen", 258, hat, ⟨_, rfl, rfl⟩, rfl⟩⟩

end Table
end SignalBridge
