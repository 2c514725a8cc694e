import SlottedMesh.Proofs.Cells.Layout
import SlottedMesh.Proofs.Identity.Indices

/-!
# Dedicated cells

Where a plan has a unicast cell for each index that there may be, no two nodes of a deployment share
one: nobody has to settle who may transmit there, or who listens.

The indices fill the first unicast slotframe, and what is left goes to the second one.  From the
slotframe and the timeslot of a cell the index can be told (`ordinal`, `exists_cell`), and from the
index the node.  `dedicated_cells` is the main statement.
-/

namespace SlottedMesh

namespace CellPlan

/-- How many unicast cells the plan has, in one slotframe or two. -/
def unicastCells (plan : CellPlan) : Nat :=
  plan.unicastPeriod.toNat + plan.spillPeriod.elim 0 UInt16.toNat

/-- The place of a unicast cell when all of them are counted, those of the second slotframe after
those of the first. -/
def ordinal (plan : CellPlan) (frame timeslot : UInt16) : Nat :=
  if frame = unicastFrame then timeslot.toNat else plan.unicastPeriod.toNat + timeslot.toNat

variable {plan : CellPlan} {index period : UInt16}

/-- A number that is below the period is not wrapped. -/
theorem wrap?_of_lt (h : index < period) : wrap? index period = some index := by
  have hne : period ≠ 0 := by
    rintro rfl
    exact UInt16.not_lt_zero h
  unfold wrap?
  rw [if_neg hne, UInt16.mod_eq_of_lt h]

/-- If the plan has a cell for it, an index has the cell that it counts to, within its slotframe. -/
theorem exists_cell (hroom : index.toNat < plan.unicastCells) :
    ∃ cell length, plan.cell? index = some cell ∧ plan.length? cell.frame = some length ∧
      cell.timeslot < length ∧ plan.ordinal cell.frame cell.timeslot = index.toNat := by
  unfold unicastCells at hroom
  unfold cell?
  cases hspill : plan.spillPeriod with
  | none =>
    rw [hspill, Option.elim_none, Nat.add_zero] at hroom
    have hlt : index < plan.unicastPeriod := UInt16.lt_iff_toNat_lt.2 hroom
    refine ⟨⟨unicastFrame, index, unicastFrame⟩, plan.unicastPeriod, ?_, rfl, hlt, rfl⟩
    simp only [wrap?_of_lt hlt, Option.map_some]
  | some spill =>
    rw [hspill, Option.elim_some] at hroom
    by_cases hle : plan.unicastPeriod ≤ index
    · have hrest : (index - plan.unicastPeriod).toNat = index.toNat - plan.unicastPeriod.toNat :=
        UInt16.toNat_sub_of_le _ _ hle
      have hleNat := UInt16.le_iff_toNat_le.1 hle
      have hlt : index - plan.unicastPeriod < spill := by
        rw [UInt16.lt_iff_toNat_lt, hrest]
        omega
      refine ⟨⟨spillFrame, index - plan.unicastPeriod, spillFrame⟩, spill, ?_, hspill, hlt, ?_⟩
      · simp only [if_pos hle, wrap?_of_lt hlt, Option.map_some]
      · show plan.unicastPeriod.toNat + (index - plan.unicastPeriod).toNat = _
        omega
    · refine ⟨⟨unicastFrame, index, unicastFrame⟩, plan.unicastPeriod, ?_, rfl,
        UInt16.not_le.1 hle, rfl⟩
      simp only [if_neg hle]

end CellPlan

namespace Directory

variable {d : Directory} {plan : CellPlan}

/-- The unicast cell of a node id. -/
def cellOf? (d : Directory) (plan : CellPlan) (id : UInt16) : Option Cell :=
  (d.indexOfId? id).bind plan.cell?

/-- **Dedicated cells.**  In a deployment whose nodes can be told apart and whose plan has a unicast
cell for each index that there may be, a node has the same index by its address as by its id, the
cell of that index lies within its slotframe, and no two nodes have one cell. -/
theorem dedicated_cells (hd : d.TellsApart) (hshuffle : d.Spreads)
    (hroom : d.indexCount ≤ plan.unicastCells) :
    (∀ n ∈ d.nodes, ∃ index cell length,
      d.indexOfId? n.1 = some index ∧ (d.addressOf? n.1).bind d.indexOf? = some index ∧
        d.cellOf? plan n.1 = some cell ∧
        plan.length? cell.frame = some length ∧ cell.timeslot < length) ∧
      ∀ n ∈ d.nodes, ∀ m ∈ d.nodes, n ≠ m → ∀ c c', d.cellOf? plan n.1 = some c →
        d.cellOf? plan m.1 = some c' → (c.frame, c.timeslot) ≠ (c'.frame, c'.timeslot) := by
  -- each node has an index, and the cell that the index counts to
  have hcell : ∀ n ∈ d.nodes, ∃ index cell length, d.indexOfId? n.1 = some index ∧
      d.cellOf? plan n.1 = some cell ∧ plan.length? cell.frame = some length ∧
      cell.timeslot < length ∧ plan.ordinal cell.frame cell.timeslot = index.toNat := by
    intro n hn
    obtain ⟨index, hindex, hlt⟩ := exists_index hd hshuffle hn
    obtain ⟨cell, length, hcell, hlength, htimeslot, hordinal⟩ :=
      CellPlan.exists_cell (Nat.lt_of_lt_of_le hlt hroom)
    refine ⟨index, cell, length, hindex, ?_, hlength, htimeslot, hordinal⟩
    unfold cellOf?
    rw [hindex, Option.bind_some, hcell]
  constructor
  · intro n hn
    obtain ⟨index, cell, length, hindex, hcell, hlength, htimeslot, -⟩ := hcell n hn
    exact ⟨index, cell, length, hindex, (indexOf?_addressOf? hd hn).trans hindex, hcell, hlength,
      htimeslot⟩
  · intro n hn m hm hne c c' hc hc' heq
    obtain ⟨index, cell, -, hindex, hcelln, -, -, hordinal⟩ := hcell n hn
    obtain ⟨index', cell', -, hindex', hcellm, -, -, hordinal'⟩ := hcell m hm
    rw [hc] at hcelln
    rw [hc'] at hcellm
    cases hcelln
    cases hcellm
    obtain ⟨hframe, htimeslot⟩ := Prod.mk.inj heq
    have hsame : index = index' := by
      apply UInt16.toNat_inj.1
      rw [← hordinal, ← hordinal', hframe, htimeslot]
    exact hne (eq_of_index_eq hd hshuffle hn hm (by rw [hindex, hindex', hsame]))

/-! Three nodes get the indices 0, 3 and 6 of seven.  The first slotframe has two cells, and so two
of the nodes go to the second one, the last of them to its last timeslot. -/

/-- Three nodes whose indices are spread over seven. -/
def threeNodes : Directory :=
  ⟨[(11, .ofLastByte 0x41), (12, .ofLastByte 0x88), (13, .ofLastByte 0x61)], some ⟨3, 7⟩⟩

/-- A plan with two unicast cells in the first slotframe and five in the second. -/
def twoAndFive : CellPlan := { CellPlan.standard with unicastPeriod := 2, spillPeriod := some 5 }

/-- The three nodes have different cells, two of them in the second slotframe. -/
theorem dedicated_cells_threeNodes :
    threeNodes.TellsApart ∧ threeNodes.Spreads ∧ threeNodes.indexCount ≤ twoAndFive.unicastCells ∧
      (∃ index cell length, threeNodes.indexOfId? 13 = some index ∧
        (threeNodes.addressOf? 13).bind threeNodes.indexOf? = some index ∧
        threeNodes.cellOf? twoAndFive 13 = some cell ∧
        twoAndFive.length? cell.frame = some length ∧ cell.timeslot < length) ∧
      threeNodes.cellOf? twoAndFive 12 = some ⟨3, 1, 3⟩ ∧
      threeNodes.cellOf? twoAndFive 13 = some ⟨3, 4, 3⟩ ∧
      ((3, 1) : UInt16 × UInt16) ≠ (3, 4) := by
  have hapart : threeNodes.TellsApart :=
    ⟨by decide, by decide, by decide, by decide, by decide⟩
  have hspreads : threeNodes.Spreads := by
    intro s hs
    cases hs
    decide
  have hroom : threeNodes.indexCount ≤ twoAndFive.unicastCells := by decide
  have hsecond : threeNodes.cellOf? twoAndFive 12 = some ⟨3, 1, 3⟩ := by decide
  have hthird : threeNodes.cellOf? twoAndFive 13 = some ⟨3, 4, 3⟩ := by decide
  obtain ⟨hcell, hne⟩ := dedicated_cells hapart hspreads hroom
  refine ⟨hapart, hspreads, hroom, hcell (13, .ofLastByte 0x61) (by decide), hsecond, hthird, ?_⟩
  exact hne (12, .ofLastByte 0x88) (by decide) (13, .ofLastByte 0x61) (by decide) (by decide)
    _ _ hsecond hthird

end Directory

end SlottedMesh
