import SlottedMesh.Proofs.Cells.Layout

/-!
# Orderly schedules

What the layout makes of a schedule and no event undoes: the unicast slotframes have the lengths of
the plan, every link has the id of its slotframe as its channel offset, leases are in the unicast
slotframes only, and where receivers own the cells, the node listens in its own cell on a link
without lease.

* `orderly_layOut`: a layout that succeeds leaves an orderly schedule, whatever its capacities.
* `Orderly.touches`: what changes by touches stays orderly.
* `Orderly.run`: so do the schedules of all runs of events.
* `sameFrames_run`, `run_preserves`: runs change no slotframe, and preserve what touches preserve.
-/

namespace SlottedMesh

namespace Planner

open Schedule

/-- What the layout makes of a schedule and no event undoes. -/
structure Orderly (p : Planner) (s : Schedule) : Prop where
  /-- What is kept twice agrees. -/
  wellFormed : s.WellFormed
  /-- The unicast slotframes have the lengths of the plan. -/
  length?_eq {g : UInt16} : g ∈ p.plan.unicastFrames → s.length? g = p.plan.unicastLength? g
  /-- The channel offset is the id of the slotframe. -/
  channelOffset_eq {g t : UInt16} {l : Link} : s.link? g t = some l → l.channelOffset = g
  /-- Leases are in the unicast slotframes only. -/
  mem_of_leased {g t : UInt16} {l : Link} :
    s.link? g t = some l → l.lease.isSome → g ∈ p.plan.unicastFrames
  /-- Where receivers own the cells, the node listens in its own for good. -/
  own_listens {cell : Cell} : p.plan.ownership = .receiver → p.plan.cell? p.index = some cell →
    ∃ l, s.link? cell.frame cell.timeslot = some l ∧ l.lease = none ∧ l.options.rx = true

variable {p : Planner} {d : Directory} {s s' : Schedule} {slot? : Option SlotNumber}

/-- A layout that succeeds leaves an orderly schedule. -/
theorem orderly_layOut {maxFrames maxLinks : Nat} {x : Unit}
    (h : p.layOut.perform (.empty maxFrames maxLinks) = (s, .ok x)) : p.Orderly s := by
  obtain ⟨hs, hlength, hown⟩ := pristine_layOut h
  refine ⟨hs.wellFormed, fun hg => ?_, hs.channelOffset_eq, fun hl hlease => ?_,
    fun hownership hcell => ?_⟩
  · rw [hlength, CellPlan.length?_of_mem hg]
  · rw [hs.lease_eq hl] at hlease
    cases hlease
  · obtain ⟨l, hl, hrx⟩ := hown _ hownership hcell
    exact ⟨l, hl, hs.lease_eq hl, hrx⟩

/-! ## Touches -/

/-- What touches of a place preserve, they preserve together. -/
theorem Touches.preserves (h : p.Touches slot? s s') {g t : UInt16} {P : Option Link → Prop}
    (hP : ∀ o o', p.Touch slot? g t o o' → P o → P o') (hs : P (s.link? g t)) :
    P (s'.link? g t) := by
  have hlink := h.link?_touched g t
  generalize s'.link? g t = o' at hlink ⊢
  induction hlink with
  | refl => exact hs
  | tail _ htouch ih => exact hP _ _ htouch ih

/-- A touch leaves the channel offset of the slotframe. -/
theorem Touch.channelOffset_eq {g t : UInt16} {o o' : Option Link} (h : p.Touch slot? g t o o')
    (ho : ∀ l ∈ o, l.channelOffset = g) : ∀ l ∈ o', l.channelOffset = g := by
  intro l hl
  cases h with
  | @judged _ old hnow hframe =>
    obtain ⟨options, kind, peer, rfl⟩ := eq_of_leave hl
    exact ho old rfl
  | @renewed _ old hnow hframe =>
    cases hl
    exact ho old rfl
  | used hnow hu hcell hframe htimeslot =>
    cases hl
    have hoffset := (CellPlan.cell?_eq_some hcell).2
    rw [channelOffset_merged fun old hold => by rw [ho old hold, hframe, hoffset], hoffset, hframe]
  | muted hframe hown haway => cases hl
  | heard hframe hown haway =>
    cases hl
    rw [toAttributes_placed, hframe]
    rfl

/-- A touch makes leases in the unicast slotframes only. -/
theorem Touch.mem_of_leased {g t : UInt16} {o o' : Option Link} (h : p.Touch slot? g t o o')
    (ho : ∀ l ∈ o, l.lease.isSome → g ∈ p.plan.unicastFrames) :
    ∀ l ∈ o', l.lease.isSome → g ∈ p.plan.unicastFrames := by
  intro l hl hlease
  cases h with
  | judged hnow hframe => exact hframe
  | renewed hnow hframe => exact hframe
  | used hnow hu hcell hframe htimeslot =>
    rw [hframe]
    exact (CellPlan.cell?_eq_some hcell).1
  | muted hframe hown haway => cases hl
  | @heard o own handle hframe hown haway =>
    cases hl
    cases o with
    | none => cases hlease
    | some old => exact ho old rfl hlease

/-- A touch leaves a link without lease in a unicast slotframe without lease, with the directions it
has. -/
theorem Touch.unleased {g t : UInt16} {o o' : Option Link} (h : p.Touch slot? g t o o')
    (direction : Direction) (hg : g ∈ p.plan.unicastFrames)
    (ho : ∃ l, o = some l ∧ l.lease = none ∧ l.options.has direction = true) :
    ∃ l, o' = some l ∧ l.lease = none ∧ l.options.has direction = true := by
  obtain ⟨l, rfl, hlease, hhas⟩ := ho
  cases h with
  | judged hnow hframe => exact ⟨l, leave_of_unleased hlease, hlease, hhas⟩
  | @renewed now _ hnow hframe =>
    refine ⟨l.renewed now, rfl, ?_, hhas⟩
    rw [Link.renewed, hlease]
    rfl
  | used hnow hu hcell hframe htimeslot =>
    refine ⟨_, rfl, ?_, ?_⟩
    · rw [lease_merged, stamped, hlease]
      rfl
    · rw [has_merged, Option.any_some, hhas, Bool.true_or]
  | muted hframe hown haway => exact absurd hframe (CellPlan.ne_beaconFrame hg)
  | heard hframe hown haway => exact absurd hframe (CellPlan.ne_beaconFrame hg)

/-- What changes by touches stays orderly. -/
theorem Orderly.touches (hs : p.Orderly s) (h : p.Touches slot? s s') : p.Orderly s' where
  wellFormed := h.wellFormed
  length?_eq hg := by rw [h.sameFrames.length?_eq, hs.length?_eq hg]
  channelOffset_eq {g t l} hl :=
    h.preserves (fun _ _ htouch => htouch.channelOffset_eq)
      (fun l hl => hs.channelOffset_eq hl) l hl
  mem_of_leased {g t l} hl :=
    h.preserves (fun _ _ htouch => htouch.mem_of_leased) (fun l hl => hs.mem_of_leased hl) l hl
  own_listens hownership hcell :=
    h.preserves (fun _ _ htouch => htouch.unleased .rx (CellPlan.cell?_eq_some hcell).1)
      (hs.own_listens hownership hcell)

/-- So does what an event makes of it, also if it stops half-way. -/
theorem Orderly.perform (hs : p.Orderly s) (e : Event) :
    p.Orderly ((e.edit p d).perform s).1 :=
  hs.touches (touching_edit e s hs.wellFormed)

/-- The schedules of all runs are orderly. -/
theorem Orderly.run (hs : p.Orderly s) (es : List Event) : p.Orderly (p.run d s es) := by
  induction es generalizing s with
  | nil => exact hs
  | cons e es ih => exact ih (hs.perform e)

/-- Events change no slotframe. -/
theorem sameFrames_run (hs : s.WellFormed) (es : List Event) :
    (p.run d s es).WellFormed ∧ SameFrames s (p.run d s es) := by
  induction es generalizing s with
  | nil => exact ⟨hs, .refl s⟩
  | cons e es ih =>
    have htouches := touching_edit (p := p) (d := d) e s hs
    obtain ⟨hwellFormed, hframes⟩ := ih htouches.wellFormed
    exact ⟨hwellFormed, htouches.sameFrames.trans hframes⟩

/-- What touches of a place preserve in any slot, runs preserve. -/
theorem run_preserves (hs : s.WellFormed) {g t : UInt16} {P : Option Link → Prop}
    (hP : ∀ slot? o o', p.Touch slot? g t o o' → P o → P o') (hstart : P (s.link? g t))
    (es : List Event) : P ((p.run d s es).link? g t) := by
  induction es generalizing s with
  | nil => exact hstart
  | cons e es ih =>
    have htouches := touching_edit (p := p) (d := d) e s hs
    exact ih htouches.wellFormed (htouches.preserves (hP _) hstart)

end Planner

end SlottedMesh
