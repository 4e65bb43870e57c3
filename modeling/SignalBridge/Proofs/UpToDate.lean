import SignalBridge.Proofs.BatchEffect
import SignalBridge.Proofs.QuietRun

/-! The bus never stays stale. Updates that touch no entry of a frame leave the values of the frame as
    they were, and a batch that touches it offers the frame as it can be built from then on. So the last
    frame that was sent under an identifier is the one that the table gives now. -/

namespace SignalBridge

/-! ### Untouched frames -/

namespace Table
variable {t : Table} {l : List (String × Entry)} {updates : List (String × Scalar)} {frame : Nat}

theorem settled_of_not_touches (hun : ¬Touches updates l frame) {x : String × Entry} (hx : x ∈ l)
    (hframe : x.2.frame = frame) : settled updates x = x := by
  have hnone : latest x.1 updates = none := latest_eq_none fun v hv => hun ⟨x, hx, hframe, v, hv⟩
  rw [settled, hnone]
  rfl

/-- The values of a frame change only with updates that touch it. -/
theorem Holds.frameValues_updateAll (h : Holds t l) (hun : ¬Touches updates l frame) (defaults : Defaults) :
    (t.updateAll updates).frameValues defaults frame = t.frameValues defaults frame := by
  have hentries : (t.updateAll updates).entriesOfFrame frame = t.entriesOfFrame frame := by
    have hkeep : (fun x : String × Entry => x.2.frame == frame) ∘ settled updates = fun x => x.2.frame == frame :=
      funext fun x => by rw [Function.comp_apply, settled_frame]
    rw [h.updateAll.entriesOfFrame, h.entriesOfFrame, List.filter_map, hkeep, List.map_map]
    apply List.map_congr_left
    intro x hx
    obtain ⟨hx, hframe⟩ := List.mem_filter.mp hx
    rw [Function.comp_apply, settled_of_not_touches hun hx (beq_iff_eq.mp hframe)]
  simp only [frameValues, hentries]

end Table

/-! ### One batch -/

namespace Provider
open Table
variable {p : Provider} {l : List (String × Entry)} {b : Batch} {id : Nat} {f : Frame} {accepts : Frame → Bool}

theorem holds_after (h : Holds p.table l) : Holds (p.after b).table (l.map (settled (targets b))) := by
  have heq : (p.after b).table = p.table.updateAll (targets b) := applyUpdates_fst
  exact heq ▸ h.updateAll

theorem mem_touched_iff (h : Holds p.table l) : id ∈ p.touched b ↔ Touches (targets b) l id :=
  Std.TreeSet.mem_toList.trans h.mem_touched

theorem buildFrame_after (h : Holds p.table l) (hun : ¬Touches (targets b) l id) :
    (p.after b).buildFrame id = p.buildFrame id := by
  have hvalues : (p.after b).table.frameValues p.defaults id = p.table.frameValues p.defaults id := by
    have heq : (p.after b).table = p.table.updateAll (targets b) := applyUpdates_fst
    rw [heq]
    exact h.frameValues_updateAll hun _
  unfold buildFrame
  rw [show (p.after b).defaults = p.defaults from rfl, hvalues]
  rfl

/-- A batch that does not touch a frame does not send it. -/
theorem sent_of_untouched (h : Holds p.table l) (hun : ¬Touches (targets b) l id) :
    (p.sent accepts b).filter (·.id == id) = [] := by
  rw [List.filter_eq_nil_iff]
  intro f hf hid
  obtain ⟨htouched, -⟩ := mem_offers.mp (List.mem_filter.mp hf).1
  rw [beq_iff_eq.mp hid] at htouched
  exact hun ((mem_touched_iff h).mp htouched)

/-- A batch that touches a frame sends it once, as it can be built afterwards. -/
theorem sent_of_touched (h : Holds p.table l) (hsup : p.defaults.supports id = true)
    (hacc : ∀ f : Frame, f.id = id → accepts f = true) (htouch : Touches (targets b) l id)
    (hbuild : (p.after b).buildFrame id = .ok f) : (p.sent accepts b).filter (·.id == id) = [f] := by
  have hids : (p.touched b).filter (· == id) = [id] := by
    have hnodup : (p.touched b).Nodup := touched_pairwise.imp Nat.ne_of_lt
    rw [List.filter_beq, hnodup.count, if_pos ((mem_touched_iff h).mpr htouch)]
    rfl
  have hoffer : (p.after b).offer? id = some f := offer?_eq_some.mpr ⟨hsup, hbuild⟩
  rw [sent, List.filter_comm, handle_eq, filter_id_offers, hids, offers, List.filterMap_cons_some hoffer]
  exact List.filter_cons_of_pos (hacc f (id_of_offer? hoffer))

/-! ### Sequences of deliveries -/

namespace Run
variable {r : Run} {d : Delivery} {rest deliveries : List Delivery}

theorem take_frames : (r.take accepts (.ok b) rest).frames = r.frames ++ r.provider.sent accepts b := rfl

/-- A delivery is for a frame if it is a batch that touches the frame. -/
def IsFor (d : Delivery) (l : List (String × Entry)) (id : Nat) : Prop :=
  ∃ b, d = .ok b ∧ Touches (targets b) l id

theorem holds_take (accepts : Frame → Bool) (d : Delivery) (rest : List Delivery) (h : Holds r.provider.table l) :
    ∃ l', Holds (r.take accepts d rest).provider.table l' ∧ ∀ d' id, IsFor d' l' id ↔ IsFor d' l id := by
  cases d with
  | error _ => exact ⟨l, h, fun _ _ => Iff.rfl⟩
  | ok b =>
    refine ⟨_, holds_after (b := b) h, fun d' id => exists_congr fun b' => and_congr_right fun _ => ?_⟩
    exact touches_settled

/-- A delivery that is not for a frame neither sends the frame nor changes what it would be built as. -/
theorem take_of_untouched (accepts : Frame → Bool) (rest : List Delivery) (h : Holds r.provider.table l)
    (hun : ¬IsFor d l id) :
    (r.take accepts d rest).frames.filter (·.id == id) = r.frames.filter (·.id == id) ∧
      (r.take accepts d rest).provider.buildFrame id = r.provider.buildFrame id := by
  cases d with
  | error _ => exact ⟨rfl, rfl⟩
  | ok b =>
    have hb : ¬Touches (targets b) l id := fun ht => hun ⟨b, rfl, ht⟩
    refine ⟨?_, buildFrame_after h hb⟩
    rw [take_frames, List.filter_append, sent_of_untouched h hb, List.append_nil]

theorem takeAll_of_untouched (accepts : Frame → Bool) (h : Holds r.provider.table l)
    (hun : ∀ d ∈ deliveries, ¬IsFor d l id) :
    (r.takeAll accepts deliveries).frames.filter (·.id == id) = r.frames.filter (·.id == id) ∧
      (r.takeAll accepts deliveries).provider.buildFrame id = r.provider.buildFrame id := by
  induction deliveries generalizing r l with
  | nil => exact ⟨rfl, rfl⟩
  | cons d rest ih =>
    obtain ⟨hframes, hbuild⟩ := take_of_untouched accepts rest h (hun d List.mem_cons_self)
    obtain ⟨l', h', hl'⟩ := holds_take accepts d rest h
    have hlater : ∀ d' ∈ rest, ¬IsFor d' l' id := fun d' hd' =>
      mt (hl' d' id).mp (hun d' (List.mem_cons_of_mem _ hd'))
    obtain ⟨hframes', hbuild'⟩ := ih h' hlater
    exact ⟨hframes'.trans hframes, hbuild'.trans hbuild⟩

theorem getLast?_takeAll (h : Holds r.provider.table l) (hsup : r.provider.defaults.supports id = true)
    (hacc : ∀ f : Frame, f.id = id → accepts f = true) (htouch : ∃ d ∈ deliveries, IsFor d l id)
    (hbuild : (r.takeAll accepts deliveries).provider.buildFrame id = .ok f) :
    ((r.takeAll accepts deliveries).frames.filter (·.id == id)).getLast? = some f := by
  induction deliveries generalizing r l with
  | nil =>
    obtain ⟨_, hd, -⟩ := htouch
    cases hd
  | cons d rest ih =>
    obtain ⟨l', h', hl'⟩ := holds_take accepts d rest h
    by_cases hlater : ∃ d' ∈ rest, IsFor d' l' id
    · have hsup' : (r.take accepts d rest).provider.defaults.supports id = true := by cases d <;> exact hsup
      exact ih h' hsup' hlater hbuild
    · -- No later delivery is for the frame, so this one is, and it is built now as it will be at the end.
      have hun : ∀ d' ∈ rest, ¬IsFor d' l' id := fun d' hd' ht => hlater ⟨d', hd', ht⟩
      have hnow : IsFor d l id := by
        obtain ⟨d', hd', ht⟩ := htouch
        rcases List.mem_cons.mp hd' with rfl | hd'
        · exact ht
        · exact absurd ((hl' d' id).mpr ht) (hun d' hd')
      obtain ⟨b, rfl, ht⟩ := hnow
      obtain ⟨hframes, hkeep⟩ := takeAll_of_untouched accepts h' hun
      rw [takeAll, hframes, take_frames, List.filter_append,
        sent_of_touched h hsup hacc ht (hkeep.symm.trans hbuild), List.getLast?_concat]

end Run

/-- A frame that has defaults, is accepted whenever it is offered, and was touched by some batch: if it can
    be built in the end, then it was sent, and last exactly as it is built then. A run without a request for
    shutdown takes the deliveries in the same way. -/
theorem last_sent_is_current {deliveries : List Delivery} (made : p.table.Made l)
    (hsup : p.defaults.supports id = true) (hacc : ∀ f : Frame, f.id = id → accepts f = true)
    (htouch : ∃ b, .ok b ∈ deliveries ∧ ∃ x ∈ l, x.2.frame = id ∧
      ∃ u ∈ b, u.field = .target ∧ u.path = x.1 ∧ u.value.isSome)
    (hbuild : ((Run.start p deliveries).takeAll accepts deliveries).provider.buildFrame id = .ok f) :
    (((Run.start p deliveries).takeAll accepts deliveries).frames.filter (·.id == id)).getLast? = some f ∧
      ∀ schedule : Shutdown.Schedule, schedule.NeverRequests →
        p.run accepts schedule deliveries = (Run.start p deliveries).takeAll accepts deliveries := by
  refine ⟨Run.getLast?_takeAll (r := .start p deliveries) made.holds hsup hacc ?_ hbuild,
    fun _ hquiet => run_of_neverRequests hquiet p accepts deliveries⟩
  obtain ⟨b, hb, x, hx, hframe, u, hu, hfield, hpath, hvalue⟩ := htouch
  obtain ⟨v, hvalue⟩ := Option.isSome_iff_exists.mp hvalue
  exact ⟨_, hb, b, rfl, x, hx, hframe, v, mem_targets.mpr ⟨u, hu, hfield, hpath, hvalue⟩⟩

/-- The second batch does not fit the bit, so the frame is not built for it; the third delivery fails. The loss of the
    sender at the start makes no difference. -/
theorem last_sent_is_current_doorLock :
    let lock (v : Scalar) : Delivery := .ok [⟨"Vehicle.Cabin.Door.Row1.DriverSide.IsLocked", .target, some v⟩]
    let deliveries := [lock (.integer 1), lock (.integer 5), .error .unreadable, lock (.boolean true), .ok []]
    let done := doorLock.run (fun _ => true) (.atStart [.senderGone]) deliveries
    done.provider.buildFrame 258 = .ok ⟨258, false, [1]⟩ ∧
      (done.frames.filter (·.id == 258)).getLast? = some ⟨258, false, [1]⟩ := by
  intro lock deliveries done
  have hoffer : ((Run.start doorLock deliveries).takeAll (fun _ => true) deliveries).provider.offer? 258 =
      some ⟨258, false, [1]⟩ := by
    decide +kernel
  obtain ⟨-, hbuild⟩ := offer?_eq_some.mp hoffer
  have htouch : ∃ b, .ok b ∈ deliveries ∧
      ∃ x ∈ [("Vehicle.Cabin.Door.Row1.DriverSide.IsLocked", lockEntry)], x.2.frame = 258 ∧
        ∃ u ∈ b, u.field = .target ∧ u.path = x.1 ∧ u.value.isSome :=
    ⟨_, List.mem_cons_self, _, List.mem_singleton_self _, rfl, _, List.mem_singleton_self _, rfl, rfl, rfl⟩
  obtain ⟨hlast, hrun⟩ := last_sent_is_current (.insert .empty rfl) rfl (fun _ _ => rfl) htouch hbuild
  have hdone : done = _ := hrun _ (Shutdown.Schedule.neverRequests_atStart (by decide))
  rw [hdone]
  exact ⟨hbuild, hlast⟩

end Provider
end SignalBridge
