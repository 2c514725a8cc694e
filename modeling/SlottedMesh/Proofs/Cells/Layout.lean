import SlottedMesh.Proofs.Cells.Events

/-!
# What a layout leaves

A layout that succeeds makes the slotframes of the plan, with their lengths, and links without
leases whose channel offset is the id of their slotframe: `Pristine` is what holds of the links all
through a layout, and `pristine_layOut` says what holds of a schedule in the end, whatever its
capacities.
-/

namespace SlottedMesh

/-! ## Edits that succeed -/

/-- An edit of two parts succeeds if both do, one after the other. -/
theorem Edit.perform_bind_eq_ok {α β : Type} {e : Edit α} {f : α → Edit β} {s s' : Schedule} {y : β}
    (h : (e >>= f).perform s = (s', .ok y)) :
    ∃ s₁ x, e.perform s = (s₁, .ok x) ∧ (f x).perform s₁ = (s', .ok y) := by
  rw [Change.perform_bind] at h
  split at h
  · rename_i s₁ x hfirst
    exact ⟨s₁, x, hfirst, h⟩
  · cases h

/-- A place that did not stop the edit exists. -/
theorem Edit.perform_place_eq_ok {α : Type} {o : Option α} {s s' : Schedule} {x : α}
    (h : (Edit.place o).perform s = (s', .ok x)) : o = some x ∧ s' = s := by
  cases o with
  | none => cases h
  | some y =>
    cases h
    exact ⟨rfl, rfl⟩

/-- A link that did not stop the edit was put. -/
theorem Edit.perform_putLink_eq_ok {cell : Cell} {options : Link.Options} {kind : Link.Kind}
    {peer : Link.Peer} {s s' : Schedule} {x : Unit}
    (h : (Edit.putLink cell options kind peer).perform s = (s', .ok x)) :
    ∃ l, s.putLink cell.frame cell.timeslot ⟨options, kind, peer, cell.channelOffset⟩ =
      .ok (s', l) := by
  rw [Edit.perform_putLink] at h
  split at h
  · rename_i s₁ l hput
    cases h
    exact ⟨l, hput⟩
  · cases h

/-- A slotframe that did not stop the edit was made. -/
theorem Edit.perform_addFrame_eq_ok {id length : UInt16} {s s' : Schedule} {x : Unit}
    (h : (Edit.addFrame id length).perform s = (s', .ok x)) :
    ∃ f, s.addFrame id length = .ok (s', f) := by
  rw [Edit.perform_addFrame] at h
  split at h
  · rename_i s₁ f hadd
    cases h
    exact ⟨f, hadd⟩
  · cases h

namespace Schedule

/-- A slotframe that is made has its length, and all else is as it was. -/
theorem addFrame_eq_ok {s s' : Schedule} {id length : UInt16} {f : Slotframe}
    (h : s.addFrame id length = .ok (s', f)) :
    (∀ g, s'.length? g = if g = id then some length else s.length? g) ∧
      ∀ g t, s'.link? g t = s.link? g t := by
  rw [addFrame_eq] at h
  split at h
  · cases h
  · rename_i hnone
    split at h
    · cases h
    · rename_i divisor hdivisor
      obtain ⟨hlength, rfl⟩ := Divisor.of?_eq_ok hdivisor
      split at h
      · cases h
      · cases h
        refine ⟨fun g => ?_, fun g t => ?_⟩
        · simp only [length?, frame?, Table.get?_insert]
          split <;> rfl
        · simp only [link?, frame?, Table.get?_insert]
          split
          · rename_i hg
            have hnone : s.frames.get? g = none := hg ▸ hnone
            rw [hnone]
            rfl
          · rfl

/-- A schedule as a layout builds it: no link has a lease, and each has the id of its slotframe as
its channel offset. -/
structure Pristine (s : Schedule) : Prop where
  /-- What is kept twice agrees. -/
  wellFormed : s.WellFormed
  /-- No link has a lease. -/
  lease_eq {g t : UInt16} {l : Link} : s.link? g t = some l → l.lease = none
  /-- The channel offset is the id of the slotframe. -/
  channelOffset_eq {g t : UInt16} {l : Link} : s.link? g t = some l → l.channelOffset = g

variable {s s' : Schedule}

/-- The schedule without slotframes is pristine. -/
theorem pristine_empty (maxFrames maxLinks : Nat) : (empty maxFrames maxLinks).Pristine :=
  ⟨.empty maxFrames maxLinks, nofun, nofun⟩

/-- A new slotframe leaves it so, -/
theorem Pristine.addFrame (h : s.Pristine) {id length : UInt16} {f : Slotframe}
    (hadd : s.addFrame id length = .ok (s', f)) : s'.Pristine := by
  have hlink := (addFrame_eq_ok hadd).2
  refine ⟨h.wellFormed.addFrame hadd, fun {g t l} hl => ?_, fun {g t l} hl => ?_⟩
  · rw [hlink] at hl
    exact h.lease_eq hl
  · rw [hlink] at hl
    exact h.channelOffset_eq hl

/-- and so does a link whose channel offset is its slotframe. -/
theorem Pristine.putLink (h : s.Pristine) {frame timeslot : UInt16} {a : Link.Attributes} {l : Link}
    (hput : s.putLink frame timeslot a = .ok (s', l)) (ha : a.channelOffset = frame) :
    s'.Pristine := by
  obtain ⟨hl, hset⟩ := setAt_putLink h.wellFormed hput
  refine ⟨hset.wellFormed, fun {g t l'} hl' => ?_, fun {g t l'} hl' => ?_⟩
  · rw [hset.link?_eq] at hl'
    split at hl'
    · cases hl'
      rw [hl]
      cases hold : s.link? frame timeslot with
      | none => rfl
      | some old =>
        show old.lease = none
        exact h.lease_eq hold
    · exact h.lease_eq hl'
  · rw [hset.link?_eq] at hl'
    split at hl'
    · rename_i hgt
      cases hl'
      rw [hgt.1, ← ha, hl, toAttributes_placed]
    · exact h.channelOffset_eq hl'

end Schedule

namespace CellPlan

/-- A cell is in a unicast slotframe and has its id as its channel offset. -/
theorem cell?_eq_some {plan : CellPlan} {index : UInt16} {cell : Cell}
    (h : plan.cell? index = some cell) :
    cell.frame ∈ plan.unicastFrames ∧ cell.channelOffset = cell.frame := by
  unfold cell? at h
  unfold unicastFrames
  split at h
  · obtain ⟨timeslot, _, rfl⟩ := Option.map_eq_some_iff.1 h
    exact ⟨List.mem_singleton_self _, rfl⟩
  · split at h
    · obtain ⟨timeslot, _, rfl⟩ := Option.map_eq_some_iff.1 h
      exact ⟨List.mem_cons_of_mem _ (List.mem_singleton_self _), rfl⟩
    · cases h
      exact ⟨List.mem_cons_self .., rfl⟩

/-- Beacons are not sent in unicast slotframes. -/
theorem ne_beaconFrame {plan : CellPlan} {frame : UInt16} (h : frame ∈ plan.unicastFrames) :
    frame ≠ beaconFrame := by
  rintro rfl
  have hnot : beaconFrame ∉ plan.unicastFrames := by
    unfold unicastFrames
    split <;> decide
  exact hnot h

/-- The length of a slotframe of the plan. -/
def length? (plan : CellPlan) (frame : UInt16) : Option UInt16 :=
  if frame = beaconFrame then some plan.beaconPeriod
  else if frame = sharedFrame then plan.sharedPeriod
  else if frame = unicastFrame then some plan.unicastPeriod
  else if frame = spillFrame then plan.spillPeriod
  else none

/-- A plan has the slotframes zero to three at most. -/
theorem le_three_of_length? {plan : CellPlan} {frame : UInt16} (h : (plan.length? frame).isSome) :
    frame ≤ 3 := by
  have hframe : frame = beaconFrame ∨ frame = sharedFrame ∨ frame = unicastFrame ∨
      frame = spillFrame := by
    by_contra hnot
    simp only [not_or] at hnot
    simp [length?, hnot] at h
  rcases hframe with rfl | rfl | rfl | rfl <;> decide

/-- The length of a unicast slotframe. -/
def unicastLength? (plan : CellPlan) (frame : UInt16) : Option UInt16 :=
  if frame = unicastFrame then some plan.unicastPeriod else plan.spillPeriod

/-- A unicast slotframe has its length from the plan. -/
theorem length?_of_mem {plan : CellPlan} {frame : UInt16} (h : frame ∈ plan.unicastFrames) :
    plan.length? frame = plan.unicastLength? frame := by
  unfold unicastFrames at h
  split at h
  · rw [List.mem_singleton.1 h]
    rfl
  · simp only [List.mem_cons, List.not_mem_nil, or_false] at h
    rcases h with rfl | rfl <;> rfl

end CellPlan

namespace Planner

open Schedule

variable {p : Planner} {s s' : Schedule} {x : Unit}

/-- The beacon slotframe, with the link on which the node sends its beacons. -/
theorem pristine_layOutBeacons (hs : s.Pristine) (h : p.layOutBeacons.perform s = (s', .ok x)) :
    s'.Pristine ∧ ∀ g, s'.length? g =
      if g = CellPlan.beaconFrame then some p.plan.beaconPeriod else s.length? g := by
  unfold layOutBeacons at h
  obtain ⟨s₁, _, hadd, hrest⟩ := Edit.perform_bind_eq_ok h
  obtain ⟨s₂, timeslot, hplace, hlast⟩ := Edit.perform_bind_eq_ok hrest
  obtain ⟨f, hadd⟩ := Edit.perform_addFrame_eq_ok hadd
  obtain ⟨-, rfl⟩ := Edit.perform_place_eq_ok hplace
  obtain ⟨l, hput⟩ := Edit.perform_putLink_eq_ok hlast
  have hs₁ := hs.addFrame hadd
  refine ⟨hs₁.putLink hput rfl, fun g => ?_⟩
  rw [(setAt_putLink hs₁.wellFormed hput).2.sameFrames.length?_eq, (addFrame_eq_ok hadd).1]

/-- The slotframe with the cell that all nodes share, if there is one. -/
theorem pristine_layOutShared (hs : s.Pristine) (h : p.layOutShared.perform s = (s', .ok x)) :
    s'.Pristine ∧ ∀ g, s'.length? g =
      if g = CellPlan.sharedFrame then p.plan.sharedPeriod.or (s.length? g) else s.length? g := by
  unfold layOutShared at h
  split at h
  · rename_i hnone
    cases h
    refine ⟨hs, fun g => ?_⟩
    rw [hnone, Option.none_or, ite_self]
  · rename_i period hsome
    obtain ⟨s₁, _, hadd, h⟩ := Edit.perform_bind_eq_ok h
    obtain ⟨f, hadd⟩ := Edit.perform_addFrame_eq_ok hadd
    obtain ⟨l, hput⟩ := Edit.perform_putLink_eq_ok h
    have hs₁ := hs.addFrame hadd
    refine ⟨hs₁.putLink hput rfl, fun g => ?_⟩
    rw [(setAt_putLink hs₁.wellFormed hput).2.sameFrames.length?_eq, (addFrame_eq_ok hadd).1, hsome]
    rfl

/-- The slotframes for unicast traffic. -/
theorem pristine_layOutUnicast (hs : s.Pristine) (h : p.layOutUnicast.perform s = (s', .ok x)) :
    s'.Pristine ∧ ∀ g, s'.length? g =
      if g = CellPlan.spillFrame then p.plan.spillPeriod.or (s.length? g)
      else if g = CellPlan.unicastFrame then some p.plan.unicastPeriod
      else s.length? g := by
  unfold layOutUnicast at h
  obtain ⟨s₁, _, hadd, h⟩ := Edit.perform_bind_eq_ok h
  obtain ⟨f, hadd⟩ := Edit.perform_addFrame_eq_ok hadd
  have hs₁ := hs.addFrame hadd
  have hlength := (addFrame_eq_ok hadd).1
  cases hspill : p.plan.spillPeriod with
  | none =>
    simp only [hspill] at h
    cases h
    refine ⟨hs₁, fun g => ?_⟩
    rw [hlength, Option.none_or]
    by_cases hg : g = CellPlan.spillFrame
    · subst hg
      rfl
    · rw [if_neg hg]
  | some spill =>
    simp only [hspill] at h
    obtain ⟨f', hadd'⟩ := Edit.perform_addFrame_eq_ok h
    refine ⟨hs₁.addFrame hadd', fun g => ?_⟩
    rw [(addFrame_eq_ok hadd').1, hlength]
    rfl

/-- Fixed cells change no slotframe. -/
theorem pristine_layOutFixed (hs : s.Pristine)
    (h : p.layOutFixed.perform s = (s', .ok x)) : s'.Pristine ∧ SameFrames s s' := by
  unfold layOutFixed at h
  generalize p.plan.fixedLinks = links at h
  induction links generalizing s with
  | nil =>
    cases h
    exact ⟨hs, .refl _⟩
  | cons l links ih =>
    obtain ⟨s₁, _, hfirst, hrest⟩ := Edit.perform_bind_eq_ok h
    have hkeep : s₁.Pristine ∧ SameFrames s s₁ := by
      simp only [] at hfirst
      split at hfirst
      · cases hfirst
        exact ⟨hs, .refl _⟩
      · obtain ⟨l, hput⟩ := Edit.perform_putLink_eq_ok hfirst
        exact ⟨hs.putLink hput rfl, (setAt_putLink hs.wellFormed hput).2.sameFrames⟩
    obtain ⟨hs', hframes⟩ := ih hkeep.1 hrest
    exact ⟨hs', hkeep.2.trans hframes⟩

/-- The node listens in its own cell. -/
theorem pristine_layOutOwn (hs : s.Pristine)
    (h : p.layOutOwn.perform s = (s', .ok x)) :
    s'.Pristine ∧ SameFrames s s' ∧ ∀ cell, p.plan.cell? p.index = some cell →
      ∃ l, s'.link? cell.frame cell.timeslot = some l ∧ l.options.rx = true := by
  unfold layOutOwn at h
  obtain ⟨s₁, cell, hplace, hlast⟩ := Edit.perform_bind_eq_ok h
  obtain ⟨hcell, rfl⟩ := Edit.perform_place_eq_ok hplace
  obtain ⟨l, hput⟩ := Edit.perform_putLink_eq_ok hlast
  obtain ⟨hl, hset⟩ := setAt_putLink hs.wellFormed hput
  refine ⟨hs.putLink hput (CellPlan.cell?_eq_some hcell).2, hset.sameFrames, fun cell' hcell' => ?_⟩
  rw [hcell] at hcell'
  cases hcell'
  refine ⟨l, hset.link?_self, ?_⟩
  rw [hl, toAttributes_placed]
  rfl

/-- What a layout that succeeds leaves: a pristine schedule with the slotframes of the plan, and,
where receivers own the cells, the link on which the node listens in its own cell. -/
theorem pristine_layOut {maxFrames maxLinks : Nat}
    (h : p.layOut.perform (.empty maxFrames maxLinks) = (s, .ok x)) :
    s.Pristine ∧ (∀ g, s.length? g = p.plan.length? g) ∧
      ∀ cell, p.plan.ownership = .receiver → p.plan.cell? p.index = some cell →
        ∃ l, s.link? cell.frame cell.timeslot = some l ∧ l.options.rx = true := by
  unfold layOut at h
  obtain ⟨s₁, _, hbeacons, h⟩ := Edit.perform_bind_eq_ok h
  obtain ⟨s₂, _, hshared, h⟩ := Edit.perform_bind_eq_ok h
  obtain ⟨s₃, _, hunicast, h⟩ := Edit.perform_bind_eq_ok h
  obtain ⟨hs₁, hlength₁⟩ := pristine_layOutBeacons (pristine_empty maxFrames maxLinks) hbeacons
  obtain ⟨hs₂, hlength₂⟩ := pristine_layOutShared hs₁ hshared
  obtain ⟨hs₃, hlength₃⟩ := pristine_layOutUnicast hs₂ hunicast
  have hlength (g : UInt16) : s₃.length? g = p.plan.length? g := by
    have hempty : (Schedule.empty maxFrames maxLinks).length? g = none := rfl
    rw [hlength₃, hlength₂, hlength₁, hempty]
    unfold CellPlan.length?
    by_cases hbeacon : g = CellPlan.beaconFrame
    · subst hbeacon
      rfl
    · by_cases hshared : g = CellPlan.sharedFrame
      · subst hshared
        show p.plan.sharedPeriod.or none = p.plan.sharedPeriod
        exact Option.or_none
      · by_cases hunicast : g = CellPlan.unicastFrame
        · subst hunicast
          rfl
        · simp only [if_neg hbeacon, if_neg hshared, if_neg hunicast, Option.or_none]
  cases hownership : p.plan.ownership with
  | sender =>
    simp only [hownership] at h
    obtain ⟨hs, hframes⟩ := pristine_layOutFixed hs₃ h
    exact ⟨hs, fun g => (hframes.length?_eq g).trans (hlength g), nofun⟩
  | receiver =>
    simp only [hownership] at h
    obtain ⟨hs, hframes, hown⟩ := pristine_layOutOwn hs₃ h
    exact ⟨hs, fun g => (hframes.length?_eq g).trans (hlength g), fun cell _ => hown cell⟩

end Planner

end SlottedMesh
