import SlottedMesh.Cells.Traffic
import SlottedMesh.Proofs.Schedule.Rework

/-!
# What sweeps and joins do to links

A sweep goes through the links of the unicast slotframes and carries out a verdict on each; a join
goes through the same links and starts each lease afresh.  Both act on every link for itself,
however full the schedule is:

* `sweep_reworked`: after a sweep, the unicast slotframes hold what the verdicts leave of their
  links.
* `renewAll_reworked`: after a join, they hold their links with fresh leases.

What a verdict leaves is then told direction by direction: a live direction stays (`leave_of_live`),
a direction that stays is live (`live_of_leave`), and a link without lease stays as it is.
-/

namespace SlottedMesh

/-- Whether the node uses the cell in this direction. -/
def Link.Options.has (o : Link.Options) : Direction → Bool
  | .tx => o.tx
  | .rx => o.rx

/-- The slot of the last use in this direction. -/
def Link.Lease.last (lease : Link.Lease) : Direction → SlotNumber
  | .tx => lease.lastTx
  | .rx => lease.lastRx

/-- The link with its lease started afresh, if it has one. -/
def Link.renewed (now : SlotNumber) (l : Link) : Link :=
  { l with lease := l.lease.map fun _ => .fresh now }

/-- A fresh lease was last used when it started. -/
@[simp] theorem Link.Lease.last_fresh (now : SlotNumber) (direction : Direction) :
    (Link.Lease.fresh now).last direction = now := by
  cases direction <;> rfl

/-- What is left of a link when the verdict is carried out. -/
def Verdict.leave (l : Link) : Verdict → Option Link
  | .keep => some l
  | .remove => none
  | .reduce options peer => some { l with options, kind := .normal, peer }

namespace Planner

open Schedule

variable {p : Planner} {now : SlotNumber} {s : Schedule} {l l' : Link}

/-! ## Verdicts -/

/-- A link without lease stays as it is. -/
theorem leave_of_unleased (hl : l.lease = none) : (p.verdict now l).leave l = some l := by
  unfold verdict
  rw [hl]
  rfl

/-- Of a link at most the options, the kind and the peer change. -/
theorem eq_of_leave {v : Verdict} (h : v.leave l = some l') :
    ∃ options kind peer, l' = { l with options, kind, peer } := by
  cases v with
  | keep =>
    cases h
    exact ⟨l.options, l.kind, l.peer, rfl⟩
  | remove => cases h
  | reduce options peer =>
    cases h
    exact ⟨options, .normal, peer, rfl⟩

/-- A verdict that leaves a link leaves its lease. -/
theorem lease_of_leave {v : Verdict} (h : v.leave l = some l') : l'.lease = l.lease := by
  obtain ⟨options, kind, peer, rfl⟩ := eq_of_leave h
  rfl

/-- A link that is used in a direction is not taken out. -/
theorem reduceTo_of_has {options : Link.Options} (direction : Direction)
    (h : options.has direction = true) (peer : Link.Peer) :
    reduceTo options peer = .reduce options peer := by
  unfold reduceTo
  cases direction with
  | tx => rw [show options.tx = true from h, Bool.true_or, if_pos rfl]
  | rx => rw [show options.rx = true from h, Bool.or_true, if_pos rfl]

/-- A direction that is live stays. -/
theorem leave_of_live {lease : Link.Lease} {direction : Direction} (hlease : l.lease = some lease)
    (hhas : l.options.has direction = true)
    (hlive : p.isStale now (lease.last direction) = false) :
    ∃ l', (p.verdict now l).leave l = some l' ∧ l'.options.has direction = true := by
  have hkeep : ∃ l', Verdict.keep.leave l = some l' ∧ l'.options.has direction = true :=
    ⟨l, rfl, hhas⟩
  unfold verdict
  simp only [hlease]
  cases direction with
  | tx =>
    rw [show p.isStale now lease.lastTx = false from hlive]
    cases p.isStale now lease.lastRx with
    | false => exact hkeep
    | true =>
      have hrest : (l.options.without .rxOnly).has .tx = true := by
        simpa [Link.Options.has, Link.Options.without, Link.Options.rxOnly] using hhas
      show ∃ l', Verdict.leave l (if l.options.rx then _ else .keep) = some l' ∧ _
      split
      · rw [reduceTo_of_has .tx hrest]
        exact ⟨_, rfl, hrest⟩
      · exact hkeep
  | rx =>
    rw [show p.isStale now lease.lastRx = false from hlive]
    cases p.isStale now lease.lastTx with
    | false => exact hkeep
    | true =>
      have hrest : (l.options.without .txShared).has .rx = true := by
        simpa [Link.Options.has, Link.Options.without, Link.Options.txShared] using hhas
      show ∃ l', Verdict.leave l (if l.options.tx then _ else .keep) = some l' ∧ _
      split
      · rw [reduceTo_of_has .rx hrest]
        exact ⟨_, rfl, hrest⟩
      · exact hkeep

/-- What is left after a reduction has the reduced options. -/
theorem options_of_leave_reduceTo {options : Link.Options} {peer : Link.Peer}
    (h : (reduceTo options peer).leave l = some l') : l'.options = options := by
  unfold reduceTo at h
  split at h
  · cases h
    rfl
  · cases h

/-- A direction that stays was there, and it is live. -/
theorem live_of_leave {lease : Link.Lease} {direction : Direction} (hlease : l.lease = some lease)
    (hleave : (p.verdict now l).leave l = some l') (hhas : l'.options.has direction = true) :
    l.options.has direction = true ∧ p.isStale now (lease.last direction) = false := by
  unfold verdict at hleave
  simp only [hlease] at hleave
  cases htx : p.isStale now lease.lastTx <;> cases hrx : p.isStale now lease.lastRx <;>
    simp only [htx, hrx] at hleave
  · cases hleave
    exact ⟨hhas, by cases direction <;> assumption⟩
  · split at hleave
    · rw [options_of_leave_reduceTo hleave] at hhas
      cases direction with
      | tx => exact ⟨(Bool.and_eq_true_iff.1 hhas).1, htx⟩
      | rx => simp [Link.Options.has, Link.Options.without, Link.Options.rxOnly] at hhas
    · rename_i hoff
      cases hleave
      cases direction with
      | tx => exact ⟨hhas, htx⟩
      | rx => exact absurd hhas hoff
  · split at hleave
    · rw [options_of_leave_reduceTo hleave] at hhas
      cases direction with
      | tx => simp [Link.Options.has, Link.Options.without, Link.Options.txShared] at hhas
      | rx => exact ⟨(Bool.and_eq_true_iff.1 hhas).1, hrx⟩
    · rename_i hoff
      cases hleave
      cases direction with
      | tx => exact absurd hhas hoff
      | rx => exact ⟨hhas, hrx⟩
  · cases hleave

/-! ## Carrying out verdicts -/

/-- A verdict is carried out on its link and on nothing else. -/
theorem carryOut_reworked (hs : s.WellFormed) {frame : UInt16}
    (hl : s.link? frame l.timeslot = some l) (v : Verdict) (count : Nat) :
    Reworked (At frame l.timeslot) (fun _ => v.leave l) s (carryOut frame l v s count).1 := by
  cases v with
  | keep => exact reworked_of_kept hs hl rfl
  | remove =>
    obtain ⟨s', hremove, hwork⟩ := reworked_removeLinkAt hs hl
    rw [carryOut_remove, hremove]
    exact hwork
  | reduce options peer =>
    obtain ⟨s', hput, hwork⟩ := reworked_putLink hs hl ⟨options, .normal, peer, l.channelOffset⟩
    rw [carryOut_reduce, hput]
    exact hwork.congr_at hl rfl

/-- A sweep of one slotframe carries out the verdicts there and touches no other slotframe. -/
theorem sweepFrame_reworked (hs : s.WellFormed) (count : Nat) (frame : UInt16) :
    Reworked (fun g _ => g = frame) (fun l => (p.verdict now l).leave l) s
      (p.sweepFrame now s count frame).1 := by
  unfold sweepFrame
  split
  · rename_i hf
    refine reworked_of_vacant hs ?_
    rintro g t rfl
    simp [link?, hf]
  · rename_i f hf
    refine foldl_links_reworked Prod.fst (b := (s, count)) hs hf ?_
    intro b l hb hl
    exact (carryOut_reworked hb hl (p.verdict now l) b.2).congr_at hl rfl

/-- No unicast slotframe is swept twice. -/
theorem nodup_unicastFrames (plan : CellPlan) : plan.unicastFrames.Nodup := by
  unfold CellPlan.unicastFrames
  split
  · exact List.nodup_singleton _
  · decide

/-- A fold over the unicast slotframes, whose steps rework one slotframe each, reworks them all. -/
theorem foldl_unicastFrames_reworked {β : Type} (view : β → Schedule) {act : β → UInt16 → β}
    {rework : Link → Option Link} (plan : CellPlan)
    (hact : ∀ (b : β) (frame : UInt16), (view b).WellFormed →
      Reworked (fun g _ => g = frame) rework (view b) (view (act b frame)))
    (b : β) (hb : (view b).WellFormed) :
    Reworked (fun g _ => g ∈ plan.unicastFrames) rework (view b)
      (view (plan.unicastFrames.foldl act b)) := by
  have hapart : plan.unicastFrames.Pairwise fun f f' =>
      ∀ g (_ : UInt16), g = f → ¬g = f' :=
    (nodup_unicastFrames plan).imp fun hne g _ hg hg' => hne (hg.symm.trans hg')
  refine (foldl_reworked view (fun f g _ => g = f) hapart (view b)
    (fun f _ b' hb' _ => hact b' f hb') b hb fun _ _ _ _ _ => rfl).congr_place fun g t => ?_
  simp

/-- After a sweep, the unicast slotframes hold what the verdicts leave of their links. -/
theorem sweep_reworked (hs : s.WellFormed) :
    Reworked (fun g _ => g ∈ p.plan.unicastFrames) (fun l => (p.verdict now l).leave l) s
      (p.sweep now s).1 :=
  foldl_unicastFrames_reworked Prod.fst p.plan
    (fun b frame hb => sweepFrame_reworked hb b.2 frame) (s, 0) hs

/-! ## Starting leases afresh -/

/-- Starting a lease afresh is a work on one place. -/
theorem renew_reworked (hs : s.WellFormed) {frame : UInt16}
    (hl : s.link? frame l.timeslot = some l) :
    Reworked (At frame l.timeslot) (fun l => some (l.renewed now)) s (renew now s l) := by
  unfold renew
  split
  · rename_i hlease
    refine reworked_of_kept hs hl ?_
    simp only [Link.renewed, hlease, Option.map_none]
    rw [← hlease]
  · rename_i lease hlease
    rw [hs.frame_eq hl]
    refine (reworked_setLease hs hl (some (.fresh now))).congr_at hl ?_
    simp only [Link.renewed, hlease, Option.map_some]

/-- After a join, the leases in the unicast slotframes are fresh. -/
theorem renewAll_reworked (hs : s.WellFormed) :
    Reworked (fun g _ => g ∈ p.plan.unicastFrames) (fun l => some (l.renewed now)) s
      (p.renewAll now s) := by
  refine foldl_unicastFrames_reworked id p.plan ?_ s hs
  intro s frame hs
  cases hf : s.frame? frame with
  | none =>
    simp only [id_eq]
    refine reworked_of_vacant hs ?_
    rintro g t rfl
    simp [link?, hf]
  | some f =>
    simp only [id_eq]
    exact foldl_links_reworked id hs hf fun s l hs hl => renew_reworked hs hl

end Planner

end SlottedMesh
