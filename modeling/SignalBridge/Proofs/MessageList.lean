import Mathlib.Algebra.Ring.Nat
import Mathlib.Data.List.Nodup
import SignalBridge.Bus.Database

/-! The database as a list of messages. A message that is added takes the place of the earlier one with its
    frame, but at the end of the list. What the database finds by frame or by the name of a signal is the
    first such message of the list, after any sequence of loads. -/

namespace SignalBridge

/-! ### Lists of messages -/

/-- A list with a message put at its end, in place of the one with its frame. -/
def relist (l : List Message) (m : Message) : List Message :=
  l.filter (·.frame != m.frame) ++ [m]

/-- The frames of the messages with a signal of a name, once for each such signal. -/
def carriersIn (l : List Message) (name : String) : List Nat :=
  l.flatMap fun m => List.replicate (m.signalNames.count name) m.frame

section
variable {l : List Message} {m : Message} {frame : Nat} {name : String}

theorem mem_carriersIn : frame ∈ carriersIn l name ↔ ∃ m ∈ l, name ∈ m.signalNames ∧ m.frame = frame := by
  simp only [carriersIn, List.mem_flatMap, List.mem_replicate, ne_eq, List.count_eq_zero, not_not,
    @eq_comm _ frame]

theorem carriersIn_relist : carriersIn (relist l m) name =
    (carriersIn l name).filter (· != m.frame) ++ List.replicate (m.signalNames.count name) m.frame := by
  have hfilter : carriersIn (l.filter (·.frame != m.frame)) name = (carriersIn l name).filter (· != m.frame) := by
    induction l with
    | nil => rfl
    | cons x l ih =>
      unfold carriersIn at ih ⊢
      by_cases hx : x.frame = m.frame
      · simp [hx, ih]
      · simp [hx, ih]
  rw [relist, carriersIn, List.flatMap_append, ← carriersIn, hfilter, List.flatMap_singleton]

/-- The first frame listed for a name is that of the first message with such a signal. -/
theorem head?_carriersIn : (carriersIn l name).head? = (l.find? (·.signalNames.contains name)).map (·.frame) := by
  induction l with
  | nil => rfl
  | cons m l ih =>
    rw [carriersIn, List.flatMap_cons, ← carriersIn, List.find?_cons]
    by_cases hm : name ∈ m.signalNames
    · obtain ⟨n, hn⟩ := Nat.exists_eq_add_one.mpr (List.count_pos_iff.mpr hm)
      rw [List.contains_iff_mem.mpr hm, hn]
      rfl
    · have hcontains : m.signalNames.contains name = false := by simpa using hm
      rw [hcontains, List.count_eq_zero.mpr hm]
      exact ih

theorem find?_relist : (relist l m).find? (·.frame == frame) =
    if m.frame = frame then some m else l.find? (·.frame == frame) := by
  rw [relist, List.find?_append, List.find?_singleton]
  by_cases hframe : m.frame = frame
  · have hnone : (l.filter (·.frame != m.frame)).find? (·.frame == frame) = none := by
      rw [List.find?_eq_none]
      intro m' hm' heq
      exact bne_iff_ne.mp (List.mem_filter.mp hm').2 ((beq_iff_eq.mp heq).trans hframe.symm)
    rw [hnone, if_pos (beq_iff_eq.mpr hframe), if_pos hframe, Option.none_or]
  · rw [if_neg (mt beq_iff_eq.mp hframe), if_neg hframe, Option.or_none, List.find?_filter]
    congr 1
    funext m'
    by_cases hm' : m'.frame = frame
    · simp [hm', Ne.symm hframe]
    · simp [hm']

/-- In a list without two messages of one frame, the message of a frame is the one that has it. -/
theorem find?_frame_eq_some (hl : (l.map (·.frame)).Nodup) :
    l.find? (·.frame == frame) = some m ↔ m ∈ l ∧ m.frame = frame := by
  constructor
  · intro h
    exact ⟨List.mem_of_find?_eq_some h, by simpa using List.find?_some h⟩
  · rintro ⟨hm, rfl⟩
    cases h : l.find? (·.frame == m.frame) with
    | none => simpa using List.find?_eq_none.mp h m hm
    | some m' =>
      have hframe : m'.frame = m.frame := by simpa using List.find?_some h
      exact congrArg some (List.inj_on_of_nodup_map hl (List.mem_of_find?_eq_some h) hm hframe)

end

namespace Database
variable {d : Database} {l : List Message} {m : Message} {frame : Nat} {name : String} {signals : List Signal}
  {carriers : Std.TreeMap String (List Nat)}

/-- A database lists messages: each under its frame, and for each name the frames that carry it. -/
structure Lists (d : Database) (l : List Message) : Prop where
  frames : (l.map (·.frame)).Nodup
  messages : ∀ frame, d.messages[frame]? = l.find? (·.frame == frame)
  carriers : ∀ name, d.carriers.getD name [] = carriersIn l name

/-! ### Adding a message -/

theorem getD_withdraw : (withdraw frame carriers signals).getD name [] =
    if name ∈ signals.map (·.name) then (carriers.getD name []).filter (· != frame) else carriers.getD name [] := by
  induction signals generalizing carriers with
  | nil => simp [withdraw]
  | cons s signals ih =>
    have hone : (carriers.modify s.name (·.filter (· != frame))).getD name [] =
        if s.name = name then (carriers.getD name []).filter (· != frame) else carriers.getD name [] := by
      simp only [Std.TreeMap.getD_modify, Std.compare_eq_iff_eq]
      split
      case isTrue hs =>
        rw [hs, Std.TreeMap.getD_eq_getD_getElem?]
        cases carriers[name]? <;> rfl
      case isFalse => rfl
    have hstep : withdraw frame carriers (s :: signals) =
        withdraw frame (carriers.modify s.name (·.filter (· != frame))) signals := rfl
    rw [hstep, ih, hone]
    by_cases hs : s.name = name
    · simp [hs, List.filter_filter]
    · simp [hs, Ne.symm hs]

theorem getD_enlist : (enlist frame carriers signals).getD name [] =
    carriers.getD name [] ++ List.replicate ((signals.map (·.name)).count name) frame := by
  induction signals generalizing carriers with
  | nil => simp [enlist]
  | cons s signals ih =>
    have hstep : enlist frame carriers (s :: signals) =
        enlist frame (carriers.insert s.name (carriers.getD s.name [] ++ [frame])) signals := rfl
    rw [hstep, ih]
    simp only [Std.TreeMap.getD_insert, Std.compare_eq_iff_eq, List.map_cons, List.count_cons]
    by_cases hs : s.name = name
    · simp [hs, List.replicate_succ]
    · simp [hs]

/-- The lists of names, after the frame of a message has been taken off those of the message it replaces,
    do not have the frame at all. -/
theorem Lists.getD_withdrawn (h : Lists d l) (frame : Nat) :
    (match d.messages[frame]? with
      | some previous => withdraw frame d.carriers previous.signals
      | none => d.carriers).getD name [] = (carriersIn l name).filter (· != frame) := by
  have hkeep (hno : ∀ m ∈ l, m.frame = frame → name ∉ m.signalNames) :
      carriersIn l name = (carriersIn l name).filter (· != frame) := by
    refine (List.filter_eq_self.mpr fun frame' hframe' => ?_).symm
    obtain ⟨m, hm, hname, rfl⟩ := mem_carriersIn.mp hframe'
    exact bne_iff_ne.mpr fun heq => hno m hm heq hname
  rw [h.messages]
  cases hfind : l.find? (·.frame == frame) with
  | none =>
    refine (h.carriers name).trans (hkeep fun m hm heq _ => ?_)
    exact List.find?_eq_none.mp hfind m hm (beq_iff_eq.mpr heq)
  | some previous =>
    rw [getD_withdraw, h.carriers]
    split
    case isTrue => rfl
    case isFalse hname =>
      refine hkeep fun m hm heq => ?_
      obtain rfl := Option.some.inj (hfind.symm.trans ((find?_frame_eq_some h.frames).mpr ⟨hm, heq⟩))
      exact hname

theorem Lists.add (h : Lists d l) (m : Message) : Lists (d.add m) (relist l m) where
  frames := by
    have hrest : ((l.filter (·.frame != m.frame)).map (·.frame)).Nodup :=
      h.frames.sublist (List.filter_sublist.map _)
    rw [relist, List.map_append, List.map_singleton, List.nodup_append]
    refine ⟨hrest, List.nodup_singleton _, fun frame hframe frame' hframe' => ?_⟩
    obtain ⟨m', hm', rfl⟩ := List.mem_map.mp hframe
    obtain rfl := List.mem_singleton.mp hframe'
    exact bne_iff_ne.mp (List.mem_filter.mp hm').2
  messages frame := by
    rw [find?_relist, ← h.messages]
    simp only [Database.add, Std.TreeMap.getElem?_insert, Std.compare_eq_iff_eq]
  carriers name := by
    rw [carriersIn_relist, ← h.getD_withdrawn m.frame]
    exact getD_enlist

theorem Lists.addAll (h : Lists d l) (messages : List Message) :
    Lists (messages.foldl Database.add d) (messages.foldl relist l) := by
  induction messages generalizing d l with
  | nil => exact h
  | cons m messages ih => exact ih (h.add m)

theorem lists_empty : Lists empty [] where
  frames := List.nodup_nil
  messages _ := rfl
  carriers _ := rfl

/-! ### What is found -/

theorem Lists.message (h : Lists d l) : d.message frame =
    match l.find? (·.frame == frame) with
    | some m => .ok m
    | none => .error (.messageNotFound frame) := by
  rw [← h.messages]
  rfl

theorem Lists.frameOf? (h : Lists d l) :
    d.frameOf? name = (l.find? (·.signalNames.contains name)).map (·.frame) := by
  rw [← head?_carriersIn, ← h.carriers]
  rfl

/-- A database keeps the messages that it lists, in another order. -/
theorem Lists.toList_perm (h : Lists d l) : d.messages.toList.Perm (l.map fun m => (m.frame, m)) := by
  refine (List.perm_ext_iff_of_nodup ?_ ?_).mpr fun (frame, m) => ?_
  · exact Std.TreeMap.distinct_keys_toList.imp fun hne heq => hne (Std.compare_eq_iff_eq.mpr (congrArg _ heq))
  · exact List.Nodup.of_map Prod.fst (by rw [List.map_map]; exact h.frames)
  · rw [Std.TreeMap.mem_toList_iff_getElem?_eq_some, h.messages, find?_frame_eq_some h.frames, List.mem_map]
    constructor
    · rintro ⟨hm, rfl⟩
      exact ⟨m, hm, rfl⟩
    · rintro ⟨m', hm', heq⟩
      obtain ⟨rfl, rfl⟩ := Prod.mk.inj heq
      exact ⟨hm', rfl⟩

theorem Lists.messageCount (h : Lists d l) : d.messageCount = l.length := by
  rw [Database.messageCount, ← Std.TreeMap.length_toList, h.toList_perm.length_eq, List.length_map]

theorem Lists.signalCount (h : Lists d l) : d.signalCount = (l.map (·.signals.length)).sum := by
  have hvalues : d.messages.values = d.messages.toList.map (·.2) := by
    have hfold : d.messages.values = d.messages.foldr (fun _ m rest => m :: rest) [] := rfl
    rw [hfold, Std.TreeMap.foldr_eq_foldr_toList, List.map_eq_foldr]
  have hperm : d.messages.values.Perm l := by
    have := h.toList_perm.map (·.2)
    rwa [← hvalues, List.map_map, show Prod.snd ∘ (fun m : Message => (m.frame, m)) = id from rfl, List.map_id] at this
  rw [← (hperm.map _).sum_nat, List.sum_eq_foldl, List.foldl_map]
  rfl

end Database
end SignalBridge
