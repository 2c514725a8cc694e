import Mathlib.Data.Finset.Card
import SlottedMesh.Proofs.Cells.Room

/-!
# Cells from the start

How many cells a node has after its first layout follows from its plan and its index
(`initialCells`).  `card_placesOf_laid` says that the places of a layout are as many: its parts are
put in different slotframes, and only fixed links may be put in one place.
-/

namespace SlottedMesh

namespace CellPlan

/-- The timeslots of the fixed links that name an index. -/
def fixedTimeslots (plan : CellPlan) (index : UInt16) : Finset UInt16 :=
  ((plan.fixedLinks.filter fun l => l.txIndex = index ∨ l.rxIndex = index).map
    (·.timeslot)).toFinset

/-- How many cells the node with this index has from the start: one for its beacons, the one that
all nodes share, and for unicast traffic its own or those of the fixed links. -/
def initialCells (plan : CellPlan) (index : UInt16) : Nat :=
  1 + (if plan.sharedPeriod.isSome then 1 else 0) +
    match plan.ownership with
    | .sender => (plan.fixedTimeslots index).card
    | .receiver => 1

/-- The cell that all nodes share is in no unicast slotframe. -/
theorem ne_sharedFrame {plan : CellPlan} {frame : UInt16} (h : frame ∈ plan.unicastFrames) :
    frame ≠ sharedFrame := by
  rintro rfl
  have hnot : sharedFrame ∉ plan.unicastFrames := by
    unfold unicastFrames
    split <;> decide
  exact hnot h

end CellPlan

/-- What is put in different slotframes is put at different places. -/
theorem disjoint_placesOf {xs ys : List Placing} (h : ∀ x ∈ xs, ∀ y ∈ ys, x.frame ≠ y.frame) :
    Disjoint (placesOf xs) (placesOf ys) := by
  rw [Finset.disjoint_left]
  intro place hx hy
  simp only [placesOf, List.mem_toFinset, List.mem_map] at hx hy
  obtain ⟨x, hx, rfl⟩ := hx
  obtain ⟨y, hy, hplace⟩ := hy
  exact h x hx y hy (Prod.mk.inj hplace).1.symm

namespace Planner

variable {p : Planner}

/-- The node takes part in a fixed link if it is at either end. -/
theorem isSome_fixedOptions? {l : FixedLink} :
    (p.fixedOptions? l).isSome ↔ l.txIndex = p.index ∨ l.rxIndex = p.index := by
  unfold fixedOptions?
  split
  · simp [*]
  · split <;> simp [*]

/-- The fixed links of a node are put at the timeslots of those that name it. -/
theorem placesOf_laidFixed (p : Planner) :
    placesOf p.laidFixed = (p.plan.fixedTimeslots p.index).image (CellPlan.unicastFrame, ·) := by
  ext ⟨g, t⟩
  simp only [placesOf, CellPlan.fixedTimeslots, List.mem_toFinset, List.mem_map,
    mem_laidFixed_iff, Finset.mem_image, List.mem_filter, decide_eq_true_eq,
    ← isSome_fixedOptions?]
  constructor
  · rintro ⟨_, ⟨l, hl, options, hoptions, rfl⟩, hplace⟩
    exact ⟨l.timeslot, ⟨l, ⟨hl, Option.isSome_of_eq_some hoptions⟩, rfl⟩, hplace⟩
  · rintro ⟨_, ⟨l, ⟨hl, hsome⟩, rfl⟩, hplace⟩
    obtain ⟨options, hoptions⟩ := Option.isSome_iff_exists.1 hsome
    exact ⟨_, ⟨l, hl, options, hoptions, rfl⟩, hplace⟩

/-- The shared slotframe adds one link. -/
theorem card_placesOf_laidShared (p : Planner) :
    (placesOf p.laidShared).card = if p.plan.sharedPeriod.isSome then 1 else 0 := by
  unfold laidShared
  cases p.plan.sharedPeriod <;> rfl

/-- Fixed links add as many as the node has timeslots in them, and the own cell adds one. -/
theorem card_placesOf_laidUnicast (hplan : p.plan.HasLengths) :
    (placesOf p.laidUnicast).card =
      match p.plan.ownership with
      | .sender => (p.plan.fixedTimeslots p.index).card
      | .receiver => 1 := by
  unfold laidUnicast
  cases p.plan.ownership with
  | sender =>
    simp only [placesOf_laidFixed]
    exact Finset.card_image_of_injective _ (Prod.mk_right_injective _)
  | receiver =>
    obtain ⟨cell, _, -, hcell, -⟩ := CellPlan.exists_checkedCell hplan p.index
    simp only [laidOwn, hcell]
    rfl

/-- The places of a layout are the cells that the node has from the start. -/
theorem card_placesOf_laid (hplan : p.plan.HasLengths) :
    (placesOf p.laid).card = p.plan.initialCells p.index := by
  have hbeacons : p.laidBeacons =
      [⟨CellPlan.beaconFrame, p.index % p.plan.beaconPeriod, announcing⟩] := by
    unfold laidBeacons
    rw [CellPlan.beaconSlot?_eq hplan.beaconPeriod_ne_zero]
    rfl
  have hunicast : ∀ x ∈ p.laidUnicast,
      x.frame ≠ CellPlan.beaconFrame ∧ x.frame ≠ CellPlan.sharedFrame := by
    intro x hx
    have hmem := frame_mem_of_mem_laidUnicast hx
    exact ⟨CellPlan.ne_beaconFrame hmem, CellPlan.ne_sharedFrame hmem⟩
  unfold laid
  rw [placesOf_append, placesOf_append, Finset.card_union_of_disjoint,
    Finset.card_union_of_disjoint, card_placesOf_laidShared, card_placesOf_laidUnicast hplan,
    hbeacons]
  · exact (Nat.add_assoc ..).symm
  · refine disjoint_placesOf fun x hx y hy => ?_
    rw [eq_of_mem_laidShared hx]
    exact (hunicast y hy).2.symm
  · rw [← placesOf_append]
    refine disjoint_placesOf fun x hx y hy => ?_
    obtain ⟨own, rfl⟩ := eq_of_mem_laidBeacons hx
    rcases List.mem_append.1 hy with hy | hy
    · rw [eq_of_mem_laidShared hy]
      show CellPlan.beaconFrame ≠ CellPlan.sharedFrame
      decide
    · exact (hunicast y hy).1.symm

end Planner

end SlottedMesh
