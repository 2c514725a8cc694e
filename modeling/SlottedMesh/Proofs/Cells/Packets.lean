import SlottedMesh.Proofs.Cells.Layout
import SlottedMesh.Proofs.Cells.Sweeps

/-!
# Packets

A packet that is not routing's own is a sweep and then at most one use of a cell.  The use is
refused only if the cell is vacant and all links are in use after the sweep; then the sweep is all
that was done.  Otherwise the link at the cell is made or changed, and nothing else.

* `perform_merge_of_full` and `exists_perform_merge` say when a merge is refused, and what it does
  when it is not.
* `live_of_sweep`: after a sweep, the links that are lent in the unicast slotframes are used in live
  directions only.
* `packet_sweeps_and_merges` is the main statement.  What a sweep does not visit it leaves, and so a
  lease in another slotframe may be stale: `stale_beyond_unicastFrames`.
-/

namespace SlottedMesh

namespace Schedule

variable {s s' : Schedule} {frame timeslot : UInt16} {l : Link}

/-! ## Counts -/

/-- A place that is set to a link has one; which others have one is as it was. -/
theorem isSome_link?_of_setAt (h : SetAt frame timeslot (some l) s s') :
    {place : UInt16 × UInt16 | (s'.link? place.1 place.2).isSome} =
      insert (frame, timeslot) {place | (s.link? place.1 place.2).isSome} := by
  ext ⟨g, t⟩
  simp only [Set.mem_ofPred_eq, Set.mem_insert_iff, Prod.mk.injEq, h.link?_eq]
  split
  · rename_i hgt
    exact iff_of_true rfl (.inl hgt)
  · rename_i hgt
    exact (or_iff_right hgt).symm

/-- Where there was no link, there is one more. -/
theorem linkCount_of_setAt_vacant (hs : s.WellFormed) (h : SetAt frame timeslot (some l) s s')
    (hvacant : s.link? frame timeslot = none) : s'.linkCount = s.linkCount + 1 := by
  rw [h.wellFormed.linkCount_eq_ncard, hs.linkCount_eq_ncard, isSome_link?_of_setAt h]
  refine Set.ncard_insert_of_notMem fun hsome => ?_
  rw [Set.mem_ofPred_eq, hvacant] at hsome
  exact Bool.false_ne_true hsome

/-- Where there was one, there are as many as there were. -/
theorem linkCount_of_setAt_some {old : Link} (hs : s.WellFormed)
    (h : SetAt frame timeslot (some l) s s') (hold : s.link? frame timeslot = some old) :
    s'.linkCount = s.linkCount := by
  rw [h.wellFormed.linkCount_eq_ncard, hs.linkCount_eq_ncard, isSome_link?_of_setAt h,
    Set.insert_eq_of_mem]
  rw [Set.mem_ofPred_eq, hold]
  rfl

/-- A link that is made takes the next handle. -/
theorem nextHandle_putLink_of_vacant {a : Link.Attributes} (hvacant : s.link? frame timeslot = none)
    (hput : s.putLink frame timeslot a = .ok (s', l)) : s'.nextHandle = s.nextHandle + 1 := by
  rw [putLink_eq] at hput
  split at hput
  · cases hput
  · rename_i f hf
    rw [link?_eq_get? hf] at hvacant
    simp only [hvacant] at hput
    split at hput
    · cases hput
    · split at hput
      · cases hput
      · cases hput
        rfl

end Schedule

namespace CellPlan

/-- A number has its place in a period that has a length. -/
theorem wrap?_of_ne_zero {index period : UInt16} (h : period ≠ 0) :
    wrap? index period = some (index % period) := if_neg h

/-- A node of any index has its cell, where the unicast slotframes have the lengths of the plan, and
the cell lies in its slotframe. -/
theorem exists_cell_of_lengths {plan : CellPlan} {s : Schedule}
    (hlengths : ∀ g ∈ plan.unicastFrames, s.length? g = plan.unicastLength? g) (index : UInt16) :
    ∃ cell length, plan.cell? index = some cell ∧ s.length? cell.frame = some length ∧
      cell.timeslot < length := by
  have hfirst : s.length? unicastFrame = some plan.unicastPeriod := by
    apply hlengths
    unfold unicastFrames
    split
    · exact List.mem_singleton_self _
    · exact List.mem_cons_self ..
  have hne := Schedule.ne_zero_of_length?_eq_some hfirst
  unfold cell?
  cases hspill : plan.spillPeriod with
  | none =>
    simp only [wrap?_of_ne_zero hne, Option.map_some]
    exact ⟨_, _, rfl, hfirst, UInt16.mod_lt _ (UInt16.pos_iff_ne_zero.2 hne)⟩
  | some spill =>
    simp only
    split
    · have hsecond : s.length? spillFrame = some spill := by
        rw [hlengths spillFrame (by simp [unicastFrames, hspill]), ← hspill]
        rfl
      have hne := Schedule.ne_zero_of_length?_eq_some hsecond
      simp only [wrap?_of_ne_zero hne, Option.map_some]
      exact ⟨_, _, rfl, hsecond, UInt16.mod_lt _ (UInt16.pos_iff_ne_zero.2 hne)⟩
    · rename_i hlt
      exact ⟨_, _, rfl, hfirst, UInt16.not_le.1 hlt⟩

end CellPlan

namespace Planner

open Schedule

variable {p : Planner} {d : Directory} {now : SlotNumber} {s s' : Schedule} {cell : Cell}
  {added : Link.Options} {peer : Option Link.Peer} {direction : Direction} {l : Link}
  {length : UInt16} {handle : UInt32}

/-! ## One merge -/

/-- Stamping a lease gives out no handle. -/
theorem nextHandle_stampCell (cell : Cell) (isNew : Bool) (direction : Direction)
    (now : SlotNumber) (s : Schedule) :
    (stampCell cell isNew direction now s).nextHandle = s.nextHandle := by
  unfold stampCell
  split
  · rfl
  · split
    · exact nextHandle_setLease ..
    · split
      · rfl
      · exact nextHandle_setLease ..

/-- At a vacant cell a merge puts a link and gives it a fresh lease. -/
theorem perform_merge_of_vacant (hvacant : s.link? cell.frame cell.timeslot = none) :
    (merge cell added peer direction now).perform s =
      match s.putLink cell.frame cell.timeslot
          ⟨added, .normal, peer.getD .unbound, cell.channelOffset⟩ with
      | .ok (s', _) => (stampCell cell true direction now s', .ok ())
      | .error e => (s, .error (.refused e)) := by
  unfold merge
  rw [Change.perform_bind, Change.perform_get]
  simp only [hvacant]
  rw [Change.perform_bind]
  have hput : putMerged cell none added peer =
      Edit.putLink cell added .normal (peer.getD .unbound) := rfl
  rw [hput, Edit.perform_putLink]
  rcases s.putLink cell.frame cell.timeslot _ with e | ⟨s', l⟩ <;> rfl

/-- If there is room it makes that link, which takes the next handle. -/
theorem nextHandle_merge_of_vacant (hlength : s.length? cell.frame = some length)
    (hcell : cell.timeslot < length) (hvacant : s.link? cell.frame cell.timeslot = none)
    (hroom : s.linkCount < s.maxLinks) :
    ∃ s', (merge cell added peer direction now).perform s = (s', .ok ()) ∧
      s'.nextHandle = s.nextHandle + 1 := by
  rw [perform_merge_of_vacant hvacant]
  rcases putLink_eq_ok_or_full hlength hcell
      ⟨added, .normal, peer.getD .unbound, cell.channelOffset⟩ with
    ⟨s₁, l, hput⟩ | ⟨-, -, hfull⟩
  · rw [hput]
    refine ⟨_, rfl, ?_⟩
    rw [nextHandle_stampCell, nextHandle_putLink_of_vacant hvacant hput]
  · exact absurd hroom (Nat.not_lt.2 hfull)

/-- A link that is there can be given options and a peer, and keeps its handle. -/
theorem nextHandle_putMerged_of_some (hs : s.WellFormed)
    (hl : s.link? cell.frame cell.timeslot = some l) :
    ∃ s', (putMerged cell (some l) added peer).perform s = (s', .ok ()) ∧
      s'.nextHandle = s.nextHandle := by
  unfold putMerged
  simp only
  split
  · exact ⟨s, rfl, rfl⟩
  · obtain ⟨s', hput, hwork⟩ := reworked_putLink hs hl
      ⟨l.options.union added, .normal, peer.getD l.peer, cell.channelOffset⟩
    rw [Edit.perform_putLink]
    simp only [Option.elim_some, hput]
    exact ⟨_, rfl, hwork.nextHandle_eq⟩

/-- At a cell that has a link a merge makes none. -/
theorem nextHandle_merge_of_some (hs : s.WellFormed)
    (hl : s.link? cell.frame cell.timeslot = some l) :
    ∃ s', (merge cell added peer direction now).perform s = (s', .ok ()) ∧
      s'.nextHandle = s.nextHandle := by
  unfold merge
  rw [Change.perform_bind, Change.perform_get]
  simp only [hl]
  rw [Change.perform_bind]
  obtain ⟨s', hput, hhandle⟩ := @nextHandle_putMerged_of_some s cell added peer l hs hl
  rw [hput]
  exact ⟨_, rfl, (nextHandle_stampCell ..).trans hhandle⟩

/-- What a merge does that is not refused. -/
structure Merges (cell : Cell) (added : Link.Options) (peer : Option Link.Peer)
    (direction : Direction) (now : SlotNumber) (s s' : Schedule) : Prop where
  /-- The cell holds the merged link, and all else is as it was. -/
  setAt : SetAt cell.frame cell.timeslot (some (merged cell added peer direction now s.nextHandle
    (s.link? cell.frame cell.timeslot))) s s'
  /-- A link that is made takes the next handle. -/
  nextHandle_of_vacant : s.link? cell.frame cell.timeslot = none →
    s'.nextHandle = s.nextHandle + 1
  /-- Where there is a link, none is made. -/
  nextHandle_of_some {l : Link} : s.link? cell.frame cell.timeslot = some l →
    s'.nextHandle = s.nextHandle

/-- A merge at a vacant cell is refused when all links are in use. -/
theorem perform_merge_of_full (hlength : s.length? cell.frame = some length)
    (hcell : cell.timeslot < length) (hvacant : s.link? cell.frame cell.timeslot = none)
    (hfull : s.maxLinks ≤ s.linkCount) :
    (merge cell added peer direction now).perform s =
      (s, .error (.refused (.full .link s.maxLinks))) := by
  obtain ⟨f, hf, rfl⟩ := Option.map_eq_some_iff.1 hlength
  rw [perform_merge_of_vacant hvacant]
  rw [link?_eq_get? hf] at hvacant
  rw [putLink_eq]
  simp only [hf, if_neg (UInt16.not_le.2 hcell), hvacant, if_pos hfull]

/-- Otherwise it is not. -/
theorem exists_perform_merge (hs : s.WellFormed) (hlength : s.length? cell.frame = some length)
    (hcell : cell.timeslot < length)
    (hroom : s.link? cell.frame cell.timeslot = none → s.linkCount < s.maxLinks) :
    ∃ s', (merge cell added peer direction now).perform s = (s', .ok ()) ∧
      Merges cell added peer direction now s s' := by
  have hdone : ∃ s', (merge cell added peer direction now).perform s = (s', .ok ()) ∧
      (s.link? cell.frame cell.timeslot = none → s'.nextHandle = s.nextHandle + 1) ∧
      (∀ l, s.link? cell.frame cell.timeslot = some l → s'.nextHandle = s.nextHandle) := by
    rcases hl : s.link? cell.frame cell.timeslot with _ | l
    · obtain ⟨s', hmerge, hhandle⟩ := nextHandle_merge_of_vacant hlength hcell hl (hroom hl)
      exact ⟨s', hmerge, fun _ => hhandle, nofun⟩
    · obtain ⟨s', hmerge, hhandle⟩ := nextHandle_merge_of_some hs hl
      exact ⟨s', hmerge, nofun, fun _ _ => hhandle⟩
  obtain ⟨s', hmerge, hvacant, hsome⟩ := hdone
  refine ⟨s', hmerge, ?_, hvacant, hsome _⟩
  rcases perform_merge cell added peer direction now hs with ⟨reason, herror, -⟩ | ⟨s₁, hok, hset⟩
  · rw [hmerge] at herror
    cases herror
  · rw [hmerge] at hok
    cases hok
    exact hset

/-! ## One use of a cell -/

/-- What a use makes of a link that is there. -/
structure UsedAs (p : Planner) (now : SlotNumber) (u : Use) (cell : Cell) (l l' : Link) :
    Prop where
  /-- The options of the use are added. -/
  options_eq : l'.options = l.options.union (p.optionsFor u.direction)
  /-- The link is bound to the neighbour of the use, or bound as it was if the use has none. -/
  peer_eq : l'.peer = u.peer.getD l.peer
  /-- In the lease the direction of the use is stamped; a link without lease gets none. -/
  lease_eq : l'.lease = l.lease.map (·.stamp u.direction now)
  /-- It is the same link. -/
  handle_eq : l'.handle = l.handle
  /-- It is in the same slotframe. -/
  frame_eq : l'.frame = l.frame
  /-- It takes the same timeslot. -/
  timeslot_eq : l'.timeslot = l.timeslot
  /-- If it had the options and the peer already, the rest is as it was. -/
  kept : l'.options = l.options → l'.peer = l.peer →
    l'.kind = l.kind ∧ l'.channelOffset = l.channelOffset
  /-- If not, it is put as a link for data at the channel offset of the cell. -/
  put : ¬(l'.options = l.options ∧ l'.peer = l.peer) →
    l'.kind = .normal ∧ l'.channelOffset = cell.channelOffset

/-- What a use that is not refused makes of a schedule. -/
structure Uses (p : Planner) (now : SlotNumber) (u : Use) (cell : Cell) (s s' : Schedule) :
    Prop where
  /-- What is kept twice agrees. -/
  wellFormed : s'.WellFormed
  /-- The slotframes are the same. -/
  sameFrames : SameFrames s s'
  /-- Nothing differs but what is at the cell. -/
  link?_of_ne {g t : UInt16} : ¬(g = cell.frame ∧ t = cell.timeslot) → s'.link? g t = s.link? g t
  /-- At a vacant cell a link is made, with the next handle and a fresh lease. -/
  of_vacant : s.link? cell.frame cell.timeslot = none →
    s'.link? cell.frame cell.timeslot = some
      { options := p.optionsFor u.direction, kind := .normal, peer := u.peer.getD .unbound,
        channelOffset := cell.channelOffset, handle := s.nextHandle, frame := cell.frame,
        timeslot := cell.timeslot, lease := some (.fresh now) } ∧
    s'.linkCount = s.linkCount + 1 ∧ s'.nextHandle = s.nextHandle + 1
  /-- A link that is there is used, and none is made. -/
  of_some {l : Link} : s.link? cell.frame cell.timeslot = some l →
    (∃ l', s'.link? cell.frame cell.timeslot = some l' ∧ p.UsedAs now u cell l l') ∧
    s'.linkCount = s.linkCount ∧ s'.nextHandle = s.nextHandle

variable {u : Use} {e : Event} {packet : Packet}

/-- A link that has the options and the peer is left as it is. -/
theorem joined_of_eq (h : (l.options, l.peer) = (l.options.union added, peer.getD l.peer)) :
    joined cell added peer handle (some l) = l := if_pos h

/-- Any other is put as a link for data at the channel offset of the cell. -/
theorem joined_of_ne (h : ¬(l.options, l.peer) = (l.options.union added, peer.getD l.peer)) :
    joined cell added peer handle (some l) = { l with toAttributes :=
      ⟨l.options.union added, .normal, peer.getD l.peer, cell.channelOffset⟩ } := if_neg h

/-- A merged link is one that was used. -/
theorem usedAs_merged (handle : UInt32) (l : Link) :
    p.UsedAs now u cell l
      (merged cell (p.optionsFor u.direction) u.peer u.direction now handle (some l)) := by
  unfold merged
  by_cases hsame : (l.options, l.peer) =
      (l.options.union (p.optionsFor u.direction), u.peer.getD l.peer)
  · rw [joined_of_eq hsame]
    obtain ⟨hoptions, hpeer⟩ := Prod.mk.inj hsame
    exact ⟨hoptions, hpeer, rfl, rfl, rfl, rfl, fun _ _ => ⟨rfl, rfl⟩,
      fun hnot => absurd ⟨rfl, rfl⟩ hnot⟩
  · rw [joined_of_ne hsame]
    refine ⟨rfl, rfl, rfl, rfl, rfl, rfl, fun hoptions hpeer => ?_, fun _ => ⟨rfl, rfl⟩⟩
    exact absurd (Prod.ext hoptions.symm hpeer.symm) hsame

/-- What a merge does is a use. -/
theorem Merges.uses (hs : s.WellFormed)
    (h : Merges cell (p.optionsFor u.direction) u.peer u.direction now s s') :
    p.Uses now u cell s s' where
  wellFormed := h.setAt.wellFormed
  sameFrames := h.setAt.sameFrames
  link?_of_ne hne := by rw [h.setAt.link?_eq, if_neg hne]
  of_vacant hvacant := by
    refine ⟨?_, linkCount_of_setAt_vacant hs h.setAt hvacant, h.nextHandle_of_vacant hvacant⟩
    rw [h.setAt.link?_self, hvacant]
    rfl
  of_some hl := by
    refine ⟨⟨_, h.setAt.link?_self, ?_⟩, linkCount_of_setAt_some hs h.setAt hl,
      h.nextHandle_of_some hl⟩
    rw [hl]
    exact usedAs_merged s.nextHandle _

/-- To make use of a cell is to merge it. -/
theorem perform_make_of_cell (hcell : p.plan.cell? u.owner = some cell) :
    (p.make now (some u)).perform s =
      (merge cell (p.optionsFor u.direction) u.peer u.direction now).perform s := by
  unfold make
  simp only [Change.perform_bind, hcell]
  rfl

/-! ## One packet -/

/-- The packet that was received or sent, and the slot. -/
def Event.packet? : Event → Option (Packet × SlotNumber)
  | received packet now => some (packet, now)
  | sent packet _ now => some (packet, now)
  | _ => none

/-- Packets of routing change nothing. -/
theorem perform_control (he : e.packet? = some (packet, now)) (hcontrol : packet.isControl = true) :
    (e.edit p d).perform s = (s, .ok ()) := by
  unfold Event.packet? at he
  split at he
  · cases he
    exact congrArg (Change.perform · s) (if_pos hcontrol)
  · cases he
    exact congrArg (Change.perform · s) (if_pos hcontrol)
  · cases he

/-- Other packets are a sweep and a use. -/
theorem perform_packet (he : e.packet? = some (packet, now)) (hdata : packet.isControl = false) :
    (e.edit p d).perform s = (p.make now (e.use? p d)).perform (p.sweep now s).1 := by
  unfold Event.packet? at he
  split at he
  · cases he
    exact perform_received hdata
  · cases he
    exact perform_sent hdata
  · cases he

/-- After a sweep, a link that is lent in a unicast slotframe is used in live directions only. -/
theorem live_of_sweep (hs : s.WellFormed) {g t : UInt16} (hg : g ∈ p.plan.unicastFrames)
    (hl : (p.sweep now s).1.link? g t = some l) {lease : Link.Lease} (hlease : l.lease = some lease)
    (hhas : l.options.has direction = true) : p.isStale now (lease.last direction) = false := by
  rw [(sweep_reworked hs).link?_of hg] at hl
  obtain ⟨old, -, hleave⟩ := Option.bind_eq_some_iff.1 hl
  exact (live_of_leave ((lease_of_leave hleave).symm.trans hlease) hleave hhas).2

/-- **A packet is a sweep and then all or nothing.**  A packet of routing changes nothing.  Any
other sweeps first, in a schedule whose unicast slotframes have the lengths of the plan; what is
lent in these after the sweep is used in live directions only.  If the packet makes no use of a
cell, this is all.  If it makes one, the cell is found, and the use is refused exactly if the cell
is vacant and all links are in use after the sweep, which then is all that was done.  Otherwise the
cell is used and nothing else is changed. -/
theorem packet_sweeps_and_merges (hs : s.WellFormed)
    (hlengths : ∀ g ∈ p.plan.unicastFrames, s.length? g = p.plan.unicastLength? g)
    (he : e.packet? = some (packet, now)) :
    (packet.isControl = true → (e.edit p d).perform s = (s, .ok ())) ∧
    (packet.isControl = false →
      let swept := (p.sweep now s).1
      (∀ g ∈ p.plan.unicastFrames, ∀ t l lease direction, swept.link? g t = some l →
        l.lease = some lease → l.options.has direction = true →
        p.isStale now (lease.last direction) = false) ∧
      (e.use? p d = none → (e.edit p d).perform s = (swept, .ok ())) ∧
      ∀ u, e.use? p d = some u → ∃ cell, p.plan.cell? u.owner = some cell ∧
        (swept.link? cell.frame cell.timeslot = none ∧ swept.linkCount = swept.maxLinks →
          (e.edit p d).perform s = (swept, .error (.refused (.full .link swept.maxLinks)))) ∧
        (¬(swept.link? cell.frame cell.timeslot = none ∧ swept.linkCount = swept.maxLinks) →
          ∃ s', (e.edit p d).perform s = (s', .ok ()) ∧ p.Uses now u cell swept s')) := by
  refine ⟨perform_control he, fun hdata => ?_⟩
  have hwork := @sweep_reworked p now s hs
  have hwellFormed := hwork.wellFormed
  intro swept
  refine ⟨fun g hg t l lease direction hl => live_of_sweep hs hg hl, fun hnone => ?_,
    fun u hu => ?_⟩
  · rw [perform_packet he hdata, hnone]
    rfl
  · have hswept : ∀ g ∈ p.plan.unicastFrames, swept.length? g = p.plan.unicastLength? g := by
      intro g hg
      rw [hwork.sameFrames.length?_eq, hlengths g hg]
    obtain ⟨cell, length, hcell, hlength, hlt⟩ := CellPlan.exists_cell_of_lengths hswept u.owner
    rw [perform_packet he hdata, hu, perform_make_of_cell hcell]
    refine ⟨cell, hcell, fun hfull => ?_, fun hroom => ?_⟩
    · exact perform_merge_of_full hlength hlt hfull.1 (Nat.le_of_eq hfull.2.symm)
    · obtain ⟨s', hmerge, hmerges⟩ := exists_perform_merge hwellFormed hlength hlt
        fun hvacant => Nat.lt_of_le_of_ne hwellFormed.linkCount_le fun heq => hroom ⟨hvacant, heq⟩
      exact ⟨s', hmerge, hmerges.uses hwellFormed⟩

/-! In the full schedule, a packet that is received has the link of its very cell swept, which makes
the room for the new one. -/

/-- The planner of a node whose unicast slotframe has five timeslots. -/
def shortPlanner : Planner := ⟨{ CellPlan.standard with unicastPeriod := 5 }, 0, 8⟩

/-- A packet of the node with index one. -/
def arrival : Packet := ⟨.ofLastByte 1, .ofLastByte 2, false⟩

/-- The new link has the handle after those that were given, and a lease that starts with the
packet. -/
theorem packet_sweeps_and_merges_arrival :
    fullSchedule.linkCount = fullSchedule.maxLinks ∧
      ∃ s' l, ((Event.received arrival (.ofNat 10)).edit shortPlanner ⟨[], none⟩).perform
          fullSchedule = (s', .ok ()) ∧
        s'.link? 2 1 = some l ∧ l.handle = 2 ∧ l.lease = some (.fresh (.ofNat 10)) := by
  have hlengths : ∀ g ∈ shortPlanner.plan.unicastFrames,
      fullSchedule.length? g = shortPlanner.plan.unicastLength? g := by
    intro g hg
    rw [List.mem_singleton.1 hg]
    rfl
  have he : (Event.received arrival (.ofNat 10)).packet? = some (arrival, .ofNat 10) := rfl
  obtain ⟨-, hdata⟩ :=
    @packet_sweeps_and_merges _ ⟨[], none⟩ _ _ _ _ wellFormed_fullSchedule hlengths he
  obtain ⟨-, -, huse⟩ := hdata rfl
  obtain ⟨cell, hcell, -, hok⟩ := huse ⟨.rx, 1, none⟩ rfl
  have hcell' : shortPlanner.plan.cell? 1 = some ⟨2, 1, 2⟩ := by decide +kernel
  obtain rfl : cell = ⟨2, 1, 2⟩ := Option.some.inj (hcell.symm.trans hcell')
  obtain ⟨s', hperform, huses⟩ := hok (by decide +kernel)
  obtain ⟨hlink, -, -⟩ := huses.of_vacant (by decide +kernel)
  exact ⟨by decide +kernel, s', _, hperform, hlink, by decide +kernel, rfl⟩

/-! A link of the beacon slotframe that was given a lease is never swept. -/

/-- The schedule, which has room for that link alone. -/
def strandedSchedule : Schedule :=
  ((empty 2 1).run [.addFrame 0 5, .putLink 0 0 ⟨.txOnly, .normal, .unbound, 0⟩,
    .setLease 0 0 (some (.fresh (.ofNat 0))), .addFrame 2 253]).1

/-- The planner of a node whose leases last for eight thousand slots. -/
def patientPlanner : Planner := ⟨CellPlan.standard, 3, 8000⟩

/-- A packet to the node with index five, delivered long after the lease ran out. -/
def delivery : Event := .sent ⟨.ofLastByte 3, .ofLastByte 5, false⟩ .delivered (.ofNat 10000)

/-- The link stays, stale in all its directions, and the packet is refused for want of room. -/
theorem stale_beyond_unicastFrames :
    let swept := (patientPlanner.sweep (.ofNat 10000) strandedSchedule).1
    strandedSchedule.WellFormed ∧
      (∀ g ∈ patientPlanner.plan.unicastFrames,
        strandedSchedule.length? g = patientPlanner.plan.unicastLength? g) ∧
      (delivery.edit patientPlanner ⟨[], none⟩).perform strandedSchedule =
        (swept, .error (.refused (.full .link swept.maxLinks))) ∧
      ∃ l lease, swept.link? 0 0 = some l ∧ l.lease = some lease ∧ l.options.has .tx = true ∧
        ∀ direction, l.options.has direction = true →
          patientPlanner.isStale (.ofNat 10000) (lease.last direction) = true := by
  intro swept
  have hcell : patientPlanner.plan.cell? 3 = some ⟨2, 3, 2⟩ := by decide +kernel
  have huse : delivery.use? patientPlanner ⟨[], none⟩ =
      some ⟨.tx, 3, some (.unicast (.ofLastByte 5))⟩ := rfl
  have he : delivery.packet? = some (⟨.ofLastByte 3, .ofLastByte 5, false⟩, .ofNat 10000) := rfl
  refine ⟨(WellFormed.empty 2 1).run _, fun g hg => ?_, ?_, ?_⟩
  · rw [List.mem_singleton.1 hg]
    rfl
  · have hlength : swept.length? 2 = some 253 := by decide +kernel
    rw [perform_packet he rfl, huse, perform_make_of_cell hcell]
    exact perform_merge_of_full hlength (by decide) (by decide +kernel) (by decide +kernel)
  · exact ⟨⟨⟨.txOnly, .normal, .unbound, 0⟩, 0, 0, 0, some (.fresh (.ofNat 0))⟩, .fresh (.ofNat 0),
      by decide +kernel, rfl, rfl, by decide +kernel⟩

end Planner

end SlottedMesh
