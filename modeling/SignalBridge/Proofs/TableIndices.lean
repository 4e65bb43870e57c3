import Mathlib.Data.List.Lex
import Mathlib.Data.List.Nodup
import Mathlib.Tactic.SplitIfs
import SignalBridge.Proofs.DispatchHistory
import SignalBridge.Provider

/-! The two indices of a table, after any sequence of operations on it. Each of them spreads the numbers of the
    entries over its lists, every number once and in ascending order, so that looking up all paths or all frames
    finds every entry exactly once. -/

namespace SignalBridge

/-! ### The order of texts

Texts are compared character by character. Their UTF-8 bytes come in the same order, because the bytes of two
characters differ before either of them ends. -/

section
variable {c d : Char} {s t : List Char} {p q : String}

theorem ofNat_lt_ofNat {m n : Nat} (hm : m < 256) (hn : n < 256) : UInt8.ofNat m < UInt8.ofNat n ↔ m < n := by
  rw [UInt8.lt_iff_toNat_lt, UInt8.toNat_ofNat_of_lt' hm, UInt8.toNat_ofNat_of_lt' hn]

theorem ofNat_eq_ofNat {m n : Nat} (hm : m < 256) (hn : n < 256) : UInt8.ofNat m = UInt8.ofNat n ↔ m = n := by
  rw [← UInt8.toNat_inj, UInt8.toNat_ofNat_of_lt' hm, UInt8.toNat_ofNat_of_lt' hn]

theorem utf8EncodeChar_append_lt (h : c < d) (u v : List UInt8) :
    String.utf8EncodeChar c ++ u < String.utf8EncodeChar d ++ v := by
  have hlt : c.val.toNat < d.val.toNat := h
  have hd : d.val.toNat < 1114112 := by
    rcases d.valid with h | h <;> omega
  unfold String.utf8EncodeChar
  dsimp only
  generalize c.val.toNat = m at *
  generalize d.val.toNat = n at *
  -- The digits to the base 64 are compared from the highest down.
  have hdigit (k : Nat) : k / 4096 = k / 64 / 64 ∧ k / 262144 = k / 64 / 64 / 64 := by omega
  split_ifs <;>
    simp (disch := omega) only [List.cons_append, List.nil_append, List.cons_lt_cons_iff, ofNat_lt_ofNat,
      ofNat_eq_ofNat, hdigit] <;>
    omega

theorem flatMap_utf8EncodeChar_lt (h : s < t) :
    s.flatMap String.utf8EncodeChar < t.flatMap String.utf8EncodeChar := by
  induction h with
  | @nil d t =>
    obtain ⟨b, bytes, hd⟩ := List.exists_cons_of_ne_nil (@String.utf8EncodeChar_ne_nil d)
    rw [List.flatMap_cons, hd]
    exact List.nil_lt_cons _ _
  | rel h =>
    rw [List.flatMap_cons, List.flatMap_cons]
    exact utf8EncodeChar_append_lt h _ _
  | cons _ ih =>
    rw [List.flatMap_cons, List.flatMap_cons]
    exact List.append_left_lt ih

theorem toUTF8_lt (h : p < q) : p.toUTF8.data.toList < q.toUTF8.data.toList := by
  have hbytes (s : String) : s.toUTF8.data.toList = s.toList.flatMap String.utf8EncodeChar := by
    have : s.toUTF8 = (s.toList.flatMap String.utf8EncodeChar).toByteArray := String.utf8Encode_toList.symm
    rw [this, List.data_toByteArray]
  rw [hbytes, hbytes]
  exact flatMap_utf8EncodeChar_lt (String.lt_iff.mp h)

end

/-! ### An index -/

/-- The lists of an index spread the numbers below `n`: each number stands in one of them and only once, no list
    is empty, and all are ascending. -/
structure Spreads {κ : Type} (index : List (κ × List Nat)) (n : Nat) : Prop where
  numbers : (index.flatMap (·.2)).Perm (List.range n)
  nonempty : ∀ x ∈ index, x.2 ≠ []
  ascending : ∀ x ∈ index, x.2.Pairwise (· < ·)

/-- The numbers of the elements with a key. -/
theorem mem_findIdxs_key {α κ : Type} [BEq κ] [LawfulBEq κ] {key : α → κ} {l : List α} {k : κ} {i : Nat} :
    i ∈ l.findIdxs (key · == k) ↔ (l[i]?).map key = some k := by
  rw [List.mem_findIdxs_iff_exists_getElem_pos, Option.map_eq_some_iff]
  simp only [beq_iff_eq, List.getElem?_eq_some_iff]
  constructor
  · rintro ⟨hi, rfl⟩
    exact ⟨l[i], ⟨hi, rfl⟩, rfl⟩
  · rintro ⟨x, ⟨hi, rfl⟩, hkey⟩
    exact ⟨hi, hkey⟩

section
variable {α κ : Type} [Ord κ] [Std.TransOrd κ] [Std.LawfulEqOrd κ] [BEq κ] {m : Std.TreeMap κ (List Nat)}
  {key : α → κ} {l : List α}

theorem mem_toList_of_lists (hlists : ∀ k, m.getD k [] = l.findIdxs (key · == k)) {x : κ × List Nat}
    (hx : x ∈ m.toList) : x.2 = l.findIdxs (key · == x.1) ∧ x.1 ∈ m := by
  have hget : m[x.1]? = some x.2 := Std.TreeMap.mem_toList_iff_getElem?_eq_some.mp hx
  refine ⟨?_, Std.TreeMap.mem_iff_isSome_getElem?.mpr (hget ▸ rfl)⟩
  rw [← hlists, Std.TreeMap.getD_eq_getD_getElem?, hget, Option.getD_some]

variable [LawfulBEq κ]

/-- An index that lists under each key the numbers of the elements with this key, for the keys that occur. -/
theorem spreads_of_lists (hlists : ∀ k, m.getD k [] = l.findIdxs (key · == k))
    (hkeys : ∀ k, k ∈ m ↔ ∃ x ∈ l, key x = k) : Spreads m.toList l.length where
  numbers := by
    have hmem {x : κ × List Nat} (hx : x ∈ m.toList) {i : Nat} : i ∈ x.2 ↔ ∃ hi : i < l.length, key l[i] = x.1 := by
      rw [(mem_toList_of_lists hlists hx).1, List.mem_findIdxs_iff_exists_getElem_pos]
      simp only [beq_iff_eq]
    refine (List.perm_ext_iff_of_nodup ?_ List.nodup_range).mpr fun i => ?_
    · refine List.nodup_flatMap.mpr ⟨fun x hx => ?_, ?_⟩
      · rw [(mem_toList_of_lists hlists hx).1]
        exact List.nodup_findIdxs
      · refine Std.TreeMap.distinct_keys_toList.imp_of_mem fun {x y} hx hy hne i hix hiy => hne ?_
        obtain ⟨_, hkeyx⟩ := (hmem hx).mp hix
        obtain ⟨_, hkeyy⟩ := (hmem hy).mp hiy
        exact Std.compare_eq_iff_eq.mpr (hkeyx.symm.trans hkeyy)
    · rw [List.mem_flatMap, List.mem_range]
      constructor
      · rintro ⟨x, hx, hi⟩
        exact ((hmem hx).mp hi).1
      · intro hi
        have hk : key l[i] ∈ m := (hkeys _).mpr ⟨l[i], List.getElem_mem hi, rfl⟩
        obtain ⟨numbers, hget⟩ := Option.isSome_iff_exists.mp (Std.TreeMap.mem_iff_isSome_getElem?.mp hk)
        have hx : (key l[i], numbers) ∈ m.toList := Std.TreeMap.mem_toList_iff_getElem?_eq_some.mpr hget
        exact ⟨_, hx, (hmem hx).mpr ⟨hi, rfl⟩⟩
  nonempty x hx := by
    obtain ⟨hlist, hmem⟩ := mem_toList_of_lists hlists hx
    obtain ⟨y, hy, hkey⟩ := (hkeys x.1).mp hmem
    rw [hlist, ne_eq, List.findIdxs_eq_nil_iff]
    intro hnone
    exact absurd (hnone y hy) (by simp [hkey])
  ascending x hx := by
    rw [(mem_toList_of_lists hlists hx).1]
    exact List.pairwise_findIdxs

/-- The lists of all keys have as many numbers together as there are elements. -/
theorem length_flatMap_lists (hlists : ∀ k, m.getD k [] = l.findIdxs (key · == k))
    (hkeys : ∀ k, k ∈ m ↔ ∃ x ∈ l, key x = k) : (m.keys.flatMap fun k => m.getD k []).length = l.length := by
  have hflat : (m.keys.flatMap fun k => m.getD k []) = m.toList.flatMap (·.2) := by
    rw [← Std.TreeMap.map_fst_toList_eq_keys, List.flatMap_map]
    refine List.flatMap_congr fun x hx => ?_
    rw [hlists, (mem_toList_of_lists hlists hx).1]
  rw [hflat, (spreads_of_lists hlists hkeys).numbers.length_eq, List.length_range]

end

namespace Table
variable {t : Table} {l : List (String × Entry)} {path : String} {frame : Nat} {paths : List String}

theorem Holds.size (h : Holds t l) : t.size = l.length := by
  rw [Table.size, ← Array.length_toList, h.entries, List.length_map]

theorem Holds.spreads_byPath (h : Holds t l) : Spreads t.byPath.toList t.size :=
  h.size ▸ spreads_of_lists h.byPath h.paths

theorem Holds.spreads_byFrame (h : Holds t l) : Spreads t.byFrame.toList t.size :=
  h.size ▸ spreads_of_lists h.byFrame h.frames

/-- Looking up all paths finds as many entries as there are. -/
theorem Holds.length_entriesOfPath (h : Holds t l) : (t.paths.flatMap t.entriesOfPath).length = t.size := by
  rw [h.size, ← length_flatMap_lists h.byPath h.paths, List.length_flatMap, List.length_flatMap]
  congr 2
  funext path
  rw [h.entriesOfPath, h.byPath, List.length_map, ← List.countP_eq_length_filter, List.length_findIdxs]

theorem Holds.length_entriesOfFrame (h : Holds t l) : (t.frames.flatMap t.entriesOfFrame).length = t.size := by
  rw [h.size, ← length_flatMap_lists h.byFrame h.frames, List.length_flatMap, List.length_flatMap]
  congr 2
  funext frame
  rw [h.entriesOfFrame, h.byFrame, List.length_map, ← List.countP_eq_length_filter, List.length_findIdxs]

/-- Paths are listed in the order of their bytes. -/
theorem paths_ascending (t : Table) : t.paths.Pairwise fun p q => p.toUTF8.data.toList < q.toUTF8.data.toList := by
  have hlt {p q : String} (h : compare p q = .lt) : p < q := compareOfLessAndEq_eq_lt.mp h
  exact Std.TreeMap.ordered_keys.imp fun h => toUTF8_lt (hlt h)

/-! ### Sequences of operations -/

/-- Tables after a sequence of operations, with the paths that their entries were put in under, in the order of
    their numbers: a table is made empty or from a document, then entries are put in and batches are applied. -/
inductive Operated : Table → List String → Prop
  | empty : Operated empty []
  | document {document : Json} {frameOf? : String → Option Nat} {t : Table} (hs : build document frameOf? = .ok t) :
    Operated t (((leaves "" "" document).filterMap (declared? frameOf?)).map (·.1))
  | insert {t : Table} {paths : List String} (operated : Operated t paths) (path : String) (e : Entry) :
    Operated (t.insert path e) (paths ++ [path])
  | applyUpdates {t : Table} {paths : List String} (operated : Operated t paths) (batch : List (String × Scalar)) :
    Operated (t.applyUpdates batch).1 paths

theorem Operated.holds (operated : Operated t paths) : ∃ l, Holds t l ∧ l.map (·.1) = paths := by
  induction operated with
  | empty => exact ⟨[], holds_empty, rfl⟩
  | document hs => exact ⟨_, holds_build hs, rfl⟩
  | insert _ path e ih =>
    obtain ⟨l, h, rfl⟩ := ih
    exact ⟨l ++ [(path, e)], h.insert, List.map_append⟩
  | applyUpdates _ batch ih =>
    obtain ⟨l, h, rfl⟩ := ih
    refine ⟨l.map (settled batch), applyUpdates_fst ▸ h.updateAll, ?_⟩
    rw [List.map_map]
    exact List.map_congr_left fun _ _ => rfl

/-- After any operations both indices spread the numbers of the entries over their lists. The number of an entry
    stands in the list of its frame and in that of the path it was put in under, so that looking up a path or a
    frame gives its entries in the order in which they were put in, and all paths or all frames together give
    every entry once. The paths that have an entry are subscribed to, each once and in the order of its bytes. -/
theorem indices_of_operated (operated : Operated t paths) :
    Spreads t.byPath.toList t.size ∧ Spreads t.byFrame.toList t.size ∧ paths.length = t.size ∧
      (∀ i path, i ∈ t.byPath.getD path [] ↔ paths[i]? = some path) ∧
      (∀ i frame, i ∈ t.byFrame.getD frame [] ↔ (t.entries[i]?).map (·.frame) = some frame) ∧
      (∀ path, t.entriesOfPath path = ((paths.zip t.entries.toList).filter (·.1 == path)).map (·.2)) ∧
      (∀ frame, t.entriesOfFrame frame = t.entries.toList.filter (·.frame == frame)) ∧
      (t.paths.flatMap t.entriesOfPath).length = t.size ∧ (t.frames.flatMap t.entriesOfFrame).length = t.size ∧
      ∀ p : Provider, p.table = t →
        (p.subscription.map (·.1)).Pairwise (fun p q => p.toUTF8.data.toList < q.toUTF8.data.toList) ∧
          ∀ path, path ∈ p.subscription.map (·.1) ↔ path ∈ paths := by
  obtain ⟨l, h, rfl⟩ := operated.holds
  refine ⟨h.spreads_byPath, h.spreads_byFrame, by rw [List.length_map, h.size], fun i path => ?_, fun i frame => ?_,
    fun path => ?_, fun frame => ?_, h.length_entriesOfPath, h.length_entriesOfFrame, ?_⟩
  · rw [h.byPath, mem_findIdxs_key, List.getElem?_map]
  · rw [h.byFrame, mem_findIdxs_key, ← Array.getElem?_toList, h.entries, List.getElem?_map, Option.map_map]
    rfl
  · rw [h.entriesOfPath, h.entries, List.zip_map', List.map_id']
  · rw [h.entriesOfFrame, h.entries, List.filter_map]
    rfl
  · rintro p rfl
    have hpaths : p.subscription.map (·.1) = p.table.paths := by
      rw [Provider.subscription, List.map_map]
      exact List.map_id _
    rw [hpaths]
    refine ⟨p.table.paths_ascending, fun path => ?_⟩
    rw [Table.paths, Std.TreeMap.mem_keys, h.paths, List.mem_map]

/-- Two entries share a path and two a frame; the last one is put in after a batch. -/
theorem indices_of_operated_shared :
    let e (signal : String) (frame : Nat) : Entry := { signal, frame, transform := none, last := none }
    let t := (((empty.insert "Vehicle.Open" (e "Left" 258)).insert "Vehicle.Lock" (e "Lock" 258)).applyUpdates
      [("Vehicle.Open", .boolean true)]).1.insert "Vehicle.Open" (e "Right" 259)
    Operated t ["Vehicle.Open", "Vehicle.Lock", "Vehicle.Open"] ∧
      (t.byPath.toList.flatMap (·.2)).Perm [0, 1, 2] ∧ (t.byFrame.toList.flatMap (·.2)).Perm [0, 1, 2] ∧
      (t.entriesOfPath "Vehicle.Open").map (·.signal) = ["Left", "Right"] ∧
      (t.entriesOfFrame 258).map (·.signal) = ["Left", "Lock"] ∧
      (t.paths.flatMap t.entriesOfPath).length = 3 := by
  intro e t
  have operated : Operated t ["Vehicle.Open", "Vehicle.Lock", "Vehicle.Open"] :=
    .insert (.applyUpdates (.insert (.insert .empty _ _) _ _) _) _ _
  obtain ⟨hpath, hframe, -, -, -, hofPath, hofFrame, hsum, -⟩ := indices_of_operated operated
  refine ⟨operated, hpath.numbers, hframe.numbers, ?_, ?_, hsum⟩
  · rw [hofPath]
    rfl
  · rw [hofFrame]
    rfl

end Table
end SignalBridge
