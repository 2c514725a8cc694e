import SlottedMesh.Proofs.Cells.Beacons
import SlottedMesh.Proofs.Schedule.Extensional

/-!
# Moves that are refused

To move from one time source to another, a node first takes out the link for the old one and then
puts one for the new.  Nothing is put back when the second step is refused.  Still the schedule is
never left half-way.  Each step is one operation, and an operation that is refused changes nothing.
The second step is refused only for want of room, and if the first took out a link, there is room.

* `eq_of_muteBeacons_error` and `eq_of_hearBeacons_error`: a step that is refused changes nothing.
* `eq_or_linkCount_lt_of_muteBeacons`: a first step that goes through changes nothing either, or it
  leaves a link less.
* `full_of_hearBeacons_error`: the second step is refused only for want of room.
* `eq_of_followTimeSource_error`: a move that is refused leaves the schedule as it was.
-/

namespace SlottedMesh

namespace Schedule

variable {s s' : Schedule} {frame timeslot : UInt16} {removed : Option Link}

/-- Nothing can be done in a slotframe that is not there. -/
theorem removeLinkAt_of_length?_eq_none (h : s.length? frame = none) (timeslot : UInt16) :
    s.removeLinkAt frame timeslot = .error (.unknownFrame frame) := by
  rw [removeLinkAt_eq]
  rw [Option.map_eq_none_iff.1 h]

/-- To clear a timeslot leaves the schedule or makes room for a link. -/
theorem eq_or_linkCount_lt_of_removeLinkAt (hs : s.WellFormed)
    (h : s.removeLinkAt frame timeslot = .ok (s', removed)) :
    s' = s ∨ s'.linkCount < s.linkCount := by
  rw [removeLinkAt_eq] at h
  split at h
  · cases h
  · rename_i f hf
    split at h
    · cases h
      exact .inl rfl
    · rename_i l hl
      cases h
      -- the link that was there is counted
      have hmem : l ∈ s.links := mem_links ((link?_eq_get? hf timeslot).trans hl)
      have hpos : 0 < s.linkCount := by
        rw [hs.linkCount_eq]
        exact List.length_pos_of_mem hmem
      exact .inr (Nat.sub_lt hpos Nat.one_pos)

end Schedule

namespace Edit

variable {cell : Cell} {options : Link.Options} {kind : Link.Kind} {peer : Link.Peer}
  {frame timeslot : UInt16} {s s' : Schedule} {e : PlannerError}

/-- A link that is refused leaves the schedule. -/
theorem eq_of_putLink_error
    (h : (putLink cell options kind peer).perform s = (s', .error e)) : s' = s := by
  rw [perform_putLink] at h
  split at h
  · cases h
  · cases h
    rfl

/-- So does taking one out of a slotframe that is not there. -/
theorem eq_of_removeLinkAt_error
    (h : (removeLinkAt frame timeslot).perform s = (s', .error e)) : s' = s := by
  rw [perform_removeLinkAt] at h
  split at h
  · cases h
  · cases h
    rfl

end Edit

namespace Planner

open Schedule

variable {p : Planner} {d : Directory} {s s' s₁ : Schedule} {own : UInt16} {index? : Option UInt16}
  {old new : Option Address} {e : PlannerError} {x : Unit}

/-! ## The two steps -/

/-- To stop listening is to do nothing or to clear one timeslot. -/
theorem perform_muteBeacons_eq (hperiod : p.plan.beaconPeriod ≠ 0) (own : UInt16)
    (index? : Option UInt16) (s : Schedule) :
    (p.muteBeacons own index?).perform s = (s, .ok ()) ∨
      ∃ t, (p.muteBeacons own index?).perform s =
        (Edit.removeLinkAt CellPlan.beaconFrame t).perform s := by
  cases index? with
  | none => exact .inl rfl
  | some index =>
    unfold muteBeacons
    simp only [CellPlan.beaconSlot?_eq hperiod index, Edit.place, pure_bind, awayFrom]
    split
    · exact .inl rfl
    · exact .inr ⟨_, rfl⟩

/-- To start listening is to do nothing or to put one link in a timeslot for beacons. -/
theorem perform_hearBeacons_eq (hperiod : p.plan.beaconPeriod ≠ 0) (own : UInt16)
    (index? : Option UInt16) (s : Schedule) :
    (p.hearBeacons own index?).perform s = (s, .ok ()) ∨
      ∃ t < p.plan.beaconPeriod, (p.hearBeacons own index?).perform s =
        (Edit.putLink ⟨CellPlan.beaconFrame, t, CellPlan.beaconFrame⟩ .rxOnly .advertisingOnly
          .unbound).perform s := by
  cases index? with
  | none => exact .inl rfl
  | some index =>
    have hslot := CellPlan.beaconSlot?_eq hperiod index
    unfold hearBeacons
    simp only [hslot, Edit.place, pure_bind, awayFrom]
    split
    · exact .inl rfl
    · exact .inr ⟨_, CellPlan.lt_of_beaconSlot? hslot, rfl⟩

/-- A refusal to stop listening leaves the schedule. -/
theorem eq_of_muteBeacons_error (hperiod : p.plan.beaconPeriod ≠ 0)
    (h : (p.muteBeacons own index?).perform s = (s', .error e)) : s' = s := by
  rcases perform_muteBeacons_eq hperiod own index? s with hnothing | ⟨t, hremove⟩
  · rw [hnothing] at h
    cases h
  · rw [hremove] at h
    exact Edit.eq_of_removeLinkAt_error h

/-- A refusal to start listening leaves the schedule. -/
theorem eq_of_hearBeacons_error (hperiod : p.plan.beaconPeriod ≠ 0)
    (h : (p.hearBeacons own index?).perform s = (s', .error e)) : s' = s := by
  rcases perform_hearBeacons_eq hperiod own index? s with hnothing | ⟨t, -, hput⟩
  · rw [hnothing] at h
    cases h
  · rw [hput] at h
    exact Edit.eq_of_putLink_error h

/-- Once it stopped listening, the node has its schedule as it was, or it has the beacon slotframe
and a link less than before. -/
theorem eq_or_linkCount_lt_of_muteBeacons (hs : s.WellFormed) (hperiod : p.plan.beaconPeriod ≠ 0)
    (h : (p.muteBeacons own index?).perform s = (s₁, .ok x)) :
    s₁ = s ∨ (s.length? CellPlan.beaconFrame).isSome ∧ SameFrames s s₁ ∧
      s₁.linkCount < s.linkCount := by
  rcases perform_muteBeacons_eq hperiod own index? s with hnothing | ⟨t, hclear⟩
  · rw [hnothing] at h
    cases h
    exact .inl rfl
  · rw [hclear, Edit.perform_removeLinkAt] at h
    split at h
    · rename_i s₂ removed hremove
      cases h
      rcases eq_or_linkCount_lt_of_removeLinkAt hs hremove with heq | hlt
      · exact .inl heq
      · refine .inr ⟨?_, (setAt_removeLinkAt hs hremove).sameFrames, hlt⟩
        by_contra hnone
        rw [Option.not_isSome_iff_eq_none] at hnone
        rw [removeLinkAt_of_length?_eq_none hnone] at hremove
        cases hremove
    · cases h

/-- Where there is the beacon slotframe, only want of room keeps the node from listening. -/
theorem full_of_hearBeacons_error
    (hlength : s.length? CellPlan.beaconFrame = some p.plan.beaconPeriod)
    (h : (p.hearBeacons own index?).perform s = (s', .error e)) :
    e = .refused (.full .link s.maxLinks) ∧ s.maxLinks ≤ s.linkCount := by
  rcases perform_hearBeacons_eq (ne_zero_of_length?_eq_some hlength) own index? s with
    hnothing | ⟨t, ht, hput⟩
  · rw [hnothing] at h
    cases h
  · rw [hput] at h
    rcases putLink_eq_ok_or_full hlength ht hearing with ⟨s₂, l, hok⟩ | ⟨hfull, -, hcount⟩
    · have hdone := h.symm.trans (Edit.perform_putLink_of_eq_ok hok)
      cases hdone
    · have hrefused := h.symm.trans (Edit.perform_putLink_of_eq_error hfull)
      cases hrefused
      exact ⟨rfl, hcount⟩

/-! ## The move -/

/-- With a beacon period, a move does nothing, or the two steps one after the other. -/
theorem perform_followTimeSource_eq (hperiod : p.plan.beaconPeriod ≠ 0) (d : Directory)
    (old new : Option Address) (s : Schedule) :
    (p.followTimeSource d old new).perform s = (s, .ok ()) ∨
      ∃ own, (p.followTimeSource d old new).perform s =
        (p.muteBeacons own (old.bind d.indexOf?) >>= fun _ =>
          p.hearBeacons own (new.bind d.indexOf?)).perform s := by
  by_cases hsame : old.bind d.indexOf? = new.bind d.indexOf?
  · refine .inl ?_
    unfold followTimeSource
    rw [if_pos hsame]
    rfl
  · refine .inr ⟨p.index % p.plan.beaconPeriod, ?_⟩
    unfold followTimeSource
    simp only [if_neg hsame, CellPlan.beaconSlot?_eq hperiod, Edit.place, pure_bind]

/-- Without one, nothing is done. -/
theorem eq_of_followTimeSource_of_zero (hperiod : p.plan.beaconPeriod = 0) (d : Directory)
    (old new : Option Address) (s : Schedule) : ((p.followTimeSource d old new).perform s).1 = s := by
  have hslot : p.plan.beaconSlot? p.index = none := if_pos hperiod
  unfold followTimeSource
  simp only [hslot]
  split <;> rfl

/-- A move that is refused leaves the schedule as it was.  Where there is the beacon slotframe, it
is refused only if there is no room for a link. -/
theorem eq_of_followTimeSource_error (hs : s.WellFormed)
    (hlength : ∀ length ∈ s.length? CellPlan.beaconFrame, length = p.plan.beaconPeriod)
    (h : (p.followTimeSource d old new).perform s = (s', .error e)) :
    s' = s ∧ ((s.length? CellPlan.beaconFrame).isSome →
      e = .refused (.full .link s.maxLinks) ∧ s.linkCount = s.maxLinks) := by
  have hframe (hsome : (s.length? CellPlan.beaconFrame).isSome) :
      s.length? CellPlan.beaconFrame = some p.plan.beaconPeriod := by
    obtain ⟨length, hsome⟩ := Option.isSome_iff_exists.1 hsome
    rw [hsome, hlength length hsome]
  by_cases hperiod : p.plan.beaconPeriod = 0
  · have hsame := eq_of_followTimeSource_of_zero hperiod d old new s
    rw [h] at hsame
    exact ⟨hsame, fun hsome => absurd hperiod (ne_zero_of_length?_eq_some (hframe hsome))⟩
  · rcases perform_followTimeSource_eq hperiod d old new s with hnothing | ⟨own, hsteps⟩
    · rw [hnothing] at h
      cases h
    · rw [hsteps, Change.perform_bind] at h
      rcases hmute : (p.muteBeacons own (old.bind d.indexOf?)).perform s with ⟨s₁, _ | x⟩
      · -- the first step is refused, which cannot be where there is the slotframe
        rw [hmute] at h
        cases h
        refine ⟨eq_of_muteBeacons_error hperiod hmute, fun hsome => ?_⟩
        obtain ⟨s₂, hok, -⟩ := perform_muteBeacons hs (hframe hsome) own (old.bind d.indexOf?)
        rw [hok] at hmute
        cases hmute
      · rw [hmute] at h
        have hkept := eq_of_hearBeacons_error hperiod h
        subst hkept
        rcases eq_or_linkCount_lt_of_muteBeacons hs hperiod hmute with rfl | ⟨hsome, hframes, hlt⟩
        · refine ⟨rfl, fun hsome => ?_⟩
          obtain ⟨hreason, hfull⟩ := full_of_hearBeacons_error (hframe hsome) h
          exact ⟨hreason, Nat.le_antisymm hs.linkCount_le hfull⟩
        · -- the first step took out a link, so that the second had room
          have hframe₁ := (hframes.length?_eq _).trans (hframe hsome)
          have hfull := (full_of_hearBeacons_error hframe₁ h).2
          have hmax := hframes.maxLinks_eq
          have hroom := hs.linkCount_le
          omega

/-- A planner whose first layout fills a schedule of two links. -/
def packed : Planner := ⟨{ CellPlan.standard with beaconPeriod := 5 }, 3, 8⟩

/-- With both links in use, a move from the first node to the second is refused. -/
theorem eq_of_followTimeSource_error_packed :
    ∃ s s' : Schedule, s.WellFormed ∧ s.length? CellPlan.beaconFrame = some 5 ∧
      (packed.followTimeSource ⟨[], none⟩ (some (.ofLastByte 1)) (some (.ofLastByte 2))).perform s =
        (s', .error (.refused (.full .link 2))) ∧ s' = s := by
  have hlayOut : (packed.layOut.perform (.empty 4 2)).2 = .ok () := by decide +kernel
  have hwellFormed := (pristine_layOut (Prod.ext rfl hlayOut)).1.wellFormed
  have hlength : (packed.layOut.perform (.empty 4 2)).1.length? CellPlan.beaconFrame = some 5 := by
    decide +kernel
  have hrefused : ((packed.followTimeSource ⟨[], none⟩ (some (.ofLastByte 1))
      (some (.ofLastByte 2))).perform (packed.layOut.perform (.empty 4 2)).1).2 =
      .error (.refused (.full .link 2)) := by
    decide +kernel
  refine ⟨_, _, hwellFormed, hlength, Prod.ext rfl hrefused, ?_⟩
  refine (eq_of_followTimeSource_error hwellFormed (fun length h => ?_)
    (Prod.ext rfl hrefused)).1
  rw [hlength] at h
  cases h
  rfl

end Planner

end SlottedMesh
