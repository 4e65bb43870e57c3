import Mathlib.Data.List.Basic
import SignalBridge.Mapping.Document
import SignalBridge.Outcome

/-! What a table holds: entries, each put in under a path, in the order of their numbers. The two
    indices list exactly the numbers of the entries of a path and of a frame, so looking entries up
    is filtering what the table holds. -/

namespace SignalBridge
namespace Table
variable {t : Table} {l : List (String × Entry)} {e : Entry} {path : String} {frame : Nat}

/-- A table holds entries, each with the path it was put in under. -/
structure Holds (t : Table) (l : List (String × Entry)) : Prop where
  entries : t.entries.toList = l.map (·.2)
  byPath : ∀ path, t.byPath.getD path [] = l.findIdxs (·.1 == path)
  byFrame : ∀ frame, t.byFrame.getD frame [] = l.findIdxs (·.2.frame == frame)
  paths : ∀ path, path ∈ t.byPath ↔ ∃ x ∈ l, x.1 = path
  frames : ∀ frame, frame ∈ t.byFrame ↔ ∃ x ∈ l, x.2.frame = frame

/-! ### Lists of numbers -/

theorem findIdxs_concat {α : Type} {p : α → Bool} {l : List α} {x : α} :
    (l ++ [x]).findIdxs p = l.findIdxs p ++ if p x then [l.length] else [] := by
  rw [List.findIdxs_append, List.findIdxs_singleton, Nat.zero_add]

/-- The elements with the listed numbers are those that the numbers were listed for. -/
theorem filterMap_findIdxs {α : Type} {p : α → Bool} : ∀ {l : List α}, (l.findIdxs p).filterMap (l[·]?) = l.filter p
  | [] => rfl
  | x :: l => by
    have htail : (l.findIdxs p 1).filterMap ((x :: l)[·]?) = l.filter p := by
      rw [List.findIdxs_start, List.filterMap_map]
      exact filterMap_findIdxs
    rw [List.findIdxs_cons]
    by_cases hx : p x = true
    · simp [hx, htail]
    · simp [hx, htail]

/-! ### Looking entries up -/

theorem Holds.select (h : Holds t l) (q : String × Entry → Bool) :
    t.select (l.findIdxs q) = (l.filter q).map (·.2) := by
  have hget : ∀ i : Nat, t.entries[i]? = (l[i]?).map fun x => x.2 := fun i => by
    rw [← Array.getElem?_toList, h.entries, List.getElem?_map]
  simp only [Table.select, hget]
  rw [← filterMap_findIdxs, List.map_filterMap]

theorem Holds.entriesOfPath (h : Holds t l) (path : String) :
    t.entriesOfPath path = (l.filter (·.1 == path)).map (·.2) := by
  rw [Table.entriesOfPath, h.byPath]
  exact h.select _

theorem Holds.entriesOfFrame (h : Holds t l) (frame : Nat) :
    t.entriesOfFrame frame = (l.filter (·.2.frame == frame)).map (·.2) := by
  rw [Table.entriesOfFrame, h.byFrame]
  exact h.select _

/-! ### Putting entries in -/

theorem holds_empty : Holds empty [] where
  entries := rfl
  byPath _ := rfl
  byFrame _ := rfl
  paths _ := by simp [empty]
  frames _ := by simp [empty]

theorem Holds.insert (h : Holds t l) : Holds (t.insert path e) (l ++ [(path, e)]) := by
  have hsize : t.entries.size = l.length := by
    rw [← Array.length_toList, h.entries, List.length_map]
  refine ⟨by simp [Table.insert, h.entries], fun path' => ?_, fun frame' => ?_, fun path' => ?_, fun frame' => ?_⟩
  · rw [findIdxs_concat, ← h.byPath path', ← hsize]
    simp only [Table.insert, Std.TreeMap.getD_insert, Std.compare_eq_iff_eq, beq_iff_eq]
    by_cases hp : path = path'
    · simp [hp]
    · simp [hp]
  · rw [findIdxs_concat, ← h.byFrame frame', ← hsize]
    simp only [Table.insert, Std.TreeMap.getD_insert, Std.compare_eq_iff_eq, beq_iff_eq]
    by_cases hf : e.frame = frame'
    · simp [hf]
    · simp [hf]
  · simp only [Table.insert, Std.TreeMap.mem_insert, Std.compare_eq_iff_eq, h.paths, List.mem_append,
      List.mem_singleton, or_and_right, exists_or, exists_eq_left]
    exact or_comm
  · simp only [Table.insert, Std.TreeMap.mem_insert, Std.compare_eq_iff_eq, h.frames, List.mem_append,
      List.mem_singleton, or_and_right, exists_or, exists_eq_left]
    exact or_comm

/-! ### Tables of documents -/

/-- The entry of a leaf with its path, if the leaf declares a signal that some frame carries. -/
def declared? (frameOf? : String → Option Nat) (leaf : Leaf) : Option (String × Entry) :=
  match Declaration.ofLeaf leaf with
  | .ok (some d) =>
    (frameOf? d.signal).map fun frame =>
      (leaf.path, { signal := d.signal, frame, transform := d.transform, last := none })
  | _ => none

variable {frameOf? : String → Option Nat} {t' : Table}

theorem Holds.insertLeaf {leaf : Leaf} (h : Holds t l) (hs : t.insertLeaf frameOf? leaf = .ok t') :
    Holds t' (l ++ (declared? frameOf? leaf).toList) := by
  obtain ⟨d?, hd, hs⟩ := bind_eq_ok.mp hs
  unfold declared?
  rw [hd]
  cases d? with
  | none =>
    obtain rfl := Except.ok.inj hs
    simpa using h
  | some d =>
    cases hf : frameOf? d.signal with
    | none =>
      simp only [hf] at hs
      obtain rfl := Except.ok.inj hs
      simpa [hf] using h
    | some frame =>
      simp only [hf] at hs
      obtain rfl := Except.ok.inj hs
      simpa [hf] using h.insert

theorem Holds.insertLeaves {leaves : List Leaf} (h : Holds t l)
    (hs : leaves.foldlM (Table.insertLeaf frameOf?) t = .ok t') :
    Holds t' (l ++ leaves.filterMap (declared? frameOf?)) := by
  induction leaves generalizing t l with
  | nil =>
    obtain rfl := Except.ok.inj hs
    simpa using h
  | cons leaf leaves ih =>
    rw [List.foldlM_cons] at hs
    obtain ⟨t₁, h₁, hs⟩ := bind_eq_ok.mp hs
    have := ih (h.insertLeaf h₁) hs
    rw [List.append_assoc] at this
    cases hd : declared? frameOf? leaf <;> simpa [hd] using this

/-- The table of a document holds the entries that its leaves declare, in document order. -/
theorem holds_build {document : Json} (hs : build document frameOf? = .ok t) :
    Holds t ((leaves "" "" document).filterMap (declared? frameOf?)) :=
  holds_empty.insertLeaves hs

/-! ### Tables without values -/

/-- Tables as they are made, with the entries put into them: from a document, or one by one. No entry
    has a value. -/
inductive Made : Table → List (String × Entry) → Prop
  | empty : Made empty []
  | document {document : Json} {frameOf? : String → Option Nat} {t : Table} (hs : build document frameOf? = .ok t) :
    Made t ((leaves "" "" document).filterMap (declared? frameOf?))
  | insert {t : Table} {l : List (String × Entry)} {path : String} {e : Entry} (made : Made t l)
    (hlast : e.last = none) : Made (t.insert path e) (l ++ [(path, e)])

theorem Made.holds (made : Made t l) : Holds t l := by
  induction made with
  | empty => exact holds_empty
  | document hs => exact holds_build hs
  | insert _ _ ih => exact ih.insert

theorem Made.last (made : Made t l) : ∀ x ∈ l, x.2.last = none := by
  induction made with
  | empty => intro x hx; cases hx
  | document hs =>
    intro x hx
    obtain ⟨leaf, -, hx⟩ := List.mem_filterMap.mp hx
    unfold declared? at hx
    split at hx
    · obtain ⟨frame, -, rfl⟩ := Option.map_eq_some_iff.mp hx
      rfl
    · cases hx
  | insert _ hlast ih =>
    intro x hx
    rcases List.mem_append.mp hx with hx | hx
    · exact ih x hx
    · obtain rfl := List.mem_singleton.mp hx
      exact hlast

end Table
end SignalBridge
