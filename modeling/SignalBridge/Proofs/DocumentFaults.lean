import SignalBridge.Proofs.DeclarationGrammar

/-! Which documents have no table, and why. A document is refused for the first malformed declaration in document
    order and for nothing else, so the frames of signals have no bearing on it. With fewer frames the table of a
    document has some of the same entries, in the same order. -/

namespace SignalBridge

/-- What is found first in a listing is what stands at the least place of those where something is found. -/
theorem Listed.findSome?_eq_some {α β : Type} {At : List Nat → α → Prop} {l : List α} (h : Listed At l)
    {f : α → Option β} {y : β} : l.findSome? f = some y ↔
      ∃ place x, At place x ∧ f x = some y ∧ ∀ place' x' y', At place' x' → f x' = some y' → ¬place' < place := by
  obtain ⟨placed, rfl, hascending, hmem⟩ := h
  rw [List.findSome?_map, List.findSome?_eq_some_iff]
  rw [List.pairwise_map] at hascending
  constructor
  · rintro ⟨before, ⟨place, x⟩, after, rfl, hy, hbefore⟩
    refine ⟨place, x, (hmem place x).mp (by simp), hy, fun place' x' y' hx' hy' hlt => ?_⟩
    rw [List.pairwise_append, List.pairwise_cons] at hascending
    obtain ⟨-, ⟨hafter, -⟩, -⟩ := hascending
    rcases List.mem_append.mp ((hmem place' x').mpr hx') with hp | hp
    · cases (hbefore _ hp).symm.trans hy'
    · rcases List.mem_cons.mp hp with heq | hp
      · exact lt_irrefl place ((Prod.mk.inj heq).1 ▸ hlt)
      · exact lt_asymm hlt (hafter _ hp)
  · rintro ⟨place, x, hx, hy, hleast⟩
    obtain ⟨before, after, rfl⟩ := List.append_of_mem ((hmem place x).mpr hx)
    refine ⟨before, (place, x), after, rfl, hy, fun ⟨place', x'⟩ hp => ?_⟩
    have hlt : place' < place := (List.pairwise_append.mp hascending).2.2 _ hp _ List.mem_cons_self
    have hx' : At place' x' := (hmem place' x').mp (List.mem_append_left _ hp)
    exact Option.eq_none_iff_forall_ne_some.mpr fun y' hy' => hleast place' x' y' hx' hy' hlt

/-- The leaf at a place of a document has a value as its declaration that is none by the grammar. -/
def MalformedAt (document : Json) (place : List Nat) (path : String) (v : Json) : Prop :=
  ∃ leaf, LeafAt [] "" document place leaf ∧ leaf.path = path ∧ Json.member? leaf.members declarationKey = some v ∧
    ¬v.IsDeclaration

/-- The fault for which a document with a leaf is refused. -/
def Leaf.fault? (leaf : Leaf) : Option Fault :=
  match Declaration.ofLeaf leaf with
  | .ok _ => none
  | .error fault => some fault

section
variable {leaf : Leaf} {fault : Fault} {v : Json}

theorem Leaf.fault?_eq_some : leaf.fault? = some fault ↔ Declaration.ofLeaf leaf = .error fault := by
  unfold Leaf.fault?
  cases Declaration.ofLeaf leaf <;> simp

theorem Declaration.ofLeaf_eq_error : ofLeaf leaf = .error fault ↔
    ∃ v f, Json.member? leaf.members declarationKey = some v ∧ ofJson v = .error f ∧ fault = .declaration leaf.path f := by
  cases hv : Json.member? leaf.members declarationKey with
  | none => simp [ofLeaf, hv]
  | some v =>
    rw [ofLeaf_of_member hv]
    cases hf : ofJson v with
    | ok d => simp [hf]
    | error f => simp [hf, eq_comm]

theorem Declaration.not_isDeclaration : ¬v.IsDeclaration ↔ ∃ f, ofJson v = .error f := by
  rw [← exists_ofJson]
  cases ofJson v with
  | ok d => exact iff_of_false (not_not.mpr ⟨d, rfl⟩) nofun
  | error f => exact iff_of_true nofun ⟨f, rfl⟩

end

namespace Table
variable {document : Json} {frameOf? narrower : String → Option Nat} {t t' : Table} {leaf : Leaf} {fault : Fault}

/-- Whether a leaf is put in depends on the frames; whether it is refused does not. -/
theorem insertLeaf_eq_error : t.insertLeaf frameOf? leaf = .error fault ↔ leaf.fault? = some fault := by
  unfold insertLeaf Leaf.fault?
  cases Declaration.ofLeaf leaf with
  | error f => exact ⟨fun h => congrArg some (Except.error.inj h), fun h => congrArg Except.error (Option.some.inj h)⟩
  | ok d? =>
    cases d? with
    | none => exact ⟨nofun, nofun⟩
    | some d =>
      cases hframe : frameOf? d.signal with
      | none => simp [hframe, bind, Except.bind, pure, Except.pure]
      | some frame => simp [hframe, bind, Except.bind, pure, Except.pure]

theorem insertLeaves_eq_error {leaves : List Leaf} :
    leaves.foldlM (insertLeaf frameOf?) t = .error fault ↔ leaves.findSome? Leaf.fault? = some fault := by
  induction leaves generalizing t with
  | nil => exact ⟨nofun, nofun⟩
  | cons leaf leaves ih =>
    rw [List.foldlM_cons, List.findSome?_cons]
    cases h : t.insertLeaf frameOf? leaf with
    | error f =>
      rw [insertLeaf_eq_error.mp h]
      exact ⟨fun h => congrArg some (Except.error.inj h), fun h => congrArg Except.error (Option.some.inj h)⟩
    | ok t' =>
      have hnone : leaf.fault? = none :=
        Option.eq_none_iff_forall_ne_some.mpr fun f hf => nomatch h.symm.trans (insertLeaf_eq_error.mpr hf)
      rw [hnone]
      exact ih

theorem build_eq_error : build document frameOf? = .error fault ↔ ∃ place path v f,
    MalformedAt document place path v ∧ (∀ place' path' v', MalformedAt document place' path' v' → ¬place' < place) ∧
      Declaration.ofJson v = .error f ∧ fault = .declaration path f := by
  rw [build, insertLeaves_eq_error]
  refine (listed_leaves [] "" document).findSome?_eq_some.trans ?_
  simp only [Leaf.fault?_eq_some, Declaration.ofLeaf_eq_error]
  constructor
  · rintro ⟨place, leaf, hleaf, ⟨v, f, hv, hf, rfl⟩, hleast⟩
    refine ⟨place, leaf.path, v, f, ⟨leaf, hleaf, rfl, hv, Declaration.not_isDeclaration.mpr ⟨f, hf⟩⟩, ?_, hf, rfl⟩
    rintro place' path' v' ⟨leaf', hleaf', -, hv', hmalformed⟩
    obtain ⟨f', hf'⟩ := Declaration.not_isDeclaration.mp hmalformed
    exact hleast place' leaf' _ hleaf' ⟨v', f', hv', hf', rfl⟩
  · rintro ⟨place, path, v, f, ⟨leaf, hleaf, rfl, hv, -⟩, hleast, hf, rfl⟩
    refine ⟨place, leaf, hleaf, ⟨v, f, hv, hf, rfl⟩, ?_⟩
    rintro place' leaf' _ hleaf' ⟨v', f', hv', hf', rfl⟩
    exact hleast place' leaf'.path v' ⟨leaf', hleaf', rfl, hv', Declaration.not_isDeclaration.mpr ⟨f', hf'⟩⟩

/-- With fewer frames the leaves whose signals have none declare no entry, and the others the same ones. -/
theorem declared?_of_narrower (hnarrower : ∀ signal frame, narrower signal = some frame → frameOf? signal = some frame) :
    declared? narrower leaf = (declared? frameOf? leaf).filter fun x => (narrower x.2.signal).isSome := by
  unfold declared?
  cases Declaration.ofLeaf leaf with
  | error f => rfl
  | ok d? =>
    cases d? with
    | none => rfl
    | some d =>
      cases hframe : narrower d.signal with
      | some frame => simp [hnarrower _ _ hframe, hframe, Option.filter_some]
      | none => cases hwide : frameOf? d.signal <;> simp [hwide, hframe, Option.filter_some]

/-- Whether a document has a table does not depend on the frames of signals. It has none if some declaration in it
    is malformed, and then the fault is that of the first malformed one in document order, with the path of its
    leaf. A table made with fewer frames has, in the same order, the entries for the signals that have one. -/
theorem build_of_frames (document : Json) (frameOf? narrower : String → Option Nat) :
    (∀ fault, build document frameOf? = .error fault ↔ build document narrower = .error fault) ∧
      (∀ fault, build document frameOf? = .error fault ↔ ∃ place path v f, MalformedAt document place path v ∧
        (∀ place' path' v', MalformedAt document place' path' v' → ¬place' < place) ∧
          Declaration.ofJson v = .error f ∧ fault = .declaration path f) ∧
      ∀ t t', build document frameOf? = .ok t → build document narrower = .ok t' →
        (∀ signal frame, narrower signal = some frame → frameOf? signal = some frame) →
          ∃ l, Holds t l ∧ Holds t' (l.filter fun x => (narrower x.2.signal).isSome) := by
  refine ⟨fun fault => build_eq_error.trans build_eq_error.symm, fun fault => build_eq_error, ?_⟩
  intro t t' ht ht' hnarrower
  refine ⟨_, holds_build ht, ?_⟩
  have hfilter : declared? narrower = fun leaf =>
      (declared? frameOf? leaf).filter fun x => (narrower x.2.signal).isSome :=
    funext fun leaf => declared?_of_narrower hnarrower
  rw [List.filter_filterMap, ← hfilter]
  exact holds_build ht'

/-- A branch with three leaves. The section of the second one has both members, and the declaration of the third one is
    no object. -/
def malformedDocument : Json :=
  let leaf (declaration : Json) : Json := .object [("type", .string "actuator"), ("vss2dbc", declaration)]
  let members : Json := .object [("mapping", .array []), ("math", .string "x")]
  .object [("Vehicle", .object [("type", .string "branch"),
    ("children", .object [("Open", leaf (.object [("signal", .string "DoorOpen")])),
      ("Speed", leaf (.object [("signal", .string "Velocity"), ("transform", members)])), ("Seat", leaf .null)])])]

/-- Of the two signals of the first document only one has a frame in the second table. The second document has no table
    for the leaf with both members, whether or not its signal has a frame. -/
theorem build_of_frames_grouped :
    let narrower (signal : String) : Option Nat := if signal = "DoorOpen" then some 258 else none
    let frameOf? (signal : String) : Option Nat := if signal = "Velocity" then some 599 else narrower signal
    let entry (signal : String) (frame : Nat) : Entry := { signal, frame, transform := none, last := none }
    let t' := empty.insert "Vehicle.Open" (entry "DoorOpen" 258)
    let t := t'.insert "Vehicle.Speed" (entry "Velocity" 599)
    let fault : Fault := .declaration "Vehicle.Speed" .mappingAndMath
    (build groupedDocument frameOf? = .ok t ∧ build groupedDocument narrower = .ok t' ∧
      ∃ l, Holds t l ∧ Holds t' (l.filter fun x => (narrower x.2.signal).isSome)) ∧
    build malformedDocument frameOf? = .error fault ∧ build malformedDocument narrower = .error fault ∧
      ∃ place v, MalformedAt malformedDocument place "Vehicle.Speed" v ∧
        ∀ place' path' v', MalformedAt malformedDocument place' path' v' → ¬place' < place := by
  intro narrower frameOf? entry t' t fault
  have ht : build groupedDocument frameOf? = .ok t := rfl
  have ht' : build groupedDocument narrower = .ok t' := rfl
  have hfault : build malformedDocument frameOf? = .error fault := rfl
  obtain ⟨hsame, hfirst, -⟩ := build_of_frames malformedDocument frameOf? narrower
  refine ⟨⟨ht, ht', ?_⟩, hfault, (hsame fault).mp hfault, ?_⟩
  · refine (build_of_frames groupedDocument frameOf? narrower).2.2 t t' ht ht' fun signal frame h => ?_
    obtain rfl : signal = "DoorOpen" := by
      by_contra hne
      simp [narrower, hne] at h
    exact h
  · obtain ⟨place, path, v, f, hmalformed, hleast, -, heq⟩ := (hfirst fault).mp hfault
    obtain ⟨rfl, -⟩ := Fault.declaration.inj heq
    exact ⟨place, v, hmalformed, hleast⟩

end Table
end SignalBridge
