import SlottedMesh.Proofs.Cells.Beacons
import SlottedMesh.Proofs.Checked.Arithmetic
import SlottedMesh.Proofs.Identity.Indices
import SlottedMesh.Proofs.Time.Residue

/-!
# Looking things up without a stop

Timeslots, channels, indices and cells are remainders: of slot numbers by the lengths of slotframes
and of the hopping sequence, of indices by the periods of a cell plan.  Here is how each of them is
computed step by step in words of thirty-two bits.

* `Divisor.residue_exact` says that remainders of slot numbers are exact, for divisors and
  remainders that are computed in such words.
* `checkedResidue_eq`, `checkedChannelAt_eq`, `checkedCurrent_eq` and `checkedIndexOf?_eq` say that
  nothing stops a lookup: divisors are never zero and know the sequence that they are for.
* `checkedBeaconSlot_eq` and `exists_checkedCell` say so of cells, where the plan has no length of
  zero, and that cells lie within their slotframes.
-/

namespace SlottedMesh

open Checked

/-! ## Slot numbers -/

/-- The remainder of a slot number. -/
def Divisor.checkedResidue (d : Divisor) (n : SlotNumber) : Checked UInt16 := do
  let low ← rem n.low.toNat d.value.toNat
  let product ← mul UInt32.size n.high.toNat d.wordResidue.toNat
  let high ← rem product d.value.toNat
  let sum ← add UInt32.size low high
  let residue ← rem sum d.value.toNat
  return .ofNat residue

/-- The words of a remainder have room, whatever the divisor and the slot. -/
theorem Divisor.checkedResidue_eq (d : Divisor) (n : SlotNumber) :
    d.checkedResidue n = pure (d.residue n) := by
  have hne := Nat.ne_of_gt d.value_pos
  have hproduct : n.high.toNat * d.wordResidue.toNat < UInt32.size := d.high_mul_wordResidue_lt n
  have hsum : n.low.toNat % d.value.toNat + n.high.toNat * d.wordResidue.toNat % d.value.toNat <
      UInt32.size := d.mod_add_mod_lt _ _
  unfold checkedResidue
  simp only [rem_eq hne, mul_eq hproduct, add_eq hsum, pure_bind]
  rw [← toNat_residue, UInt16.ofNat_toNat]

/-- The divisor of a length, which must not be zero. -/
def Divisor.checkedOf? (d : UInt16) : Checked (Except TimingError Divisor) :=
  if h : d = 0 then return .error .zeroDivisor
  else do
    let rest ← rem (UInt32.size - 1) d.toNat
    let sum ← add UInt32.size rest 1
    let wordResidue ← rem sum d.toNat
    return .ok ⟨d, .ofNat wordResidue, h⟩

/-- Making a divisor does not stop: only zero is divided by nowhere. -/
theorem Divisor.checkedOf?_eq (d : UInt16) : checkedOf? d = pure (of? d) := by
  unfold checkedOf? of?
  split
  · rfl
  · rename_i hd
    have hpos : 0 < d.toNat := (ofLength d hd).value_pos
    have hsum : (UInt32.size - 1) % d.toNat + 1 < UInt32.size := mod_add_one_lt hd
    have hword : UInt16.ofNat (((UInt32.size - 1) % d.toNat + 1) % d.toNat) =
        (ofLength d hd).wordResidue := by
      apply UInt16.toNat_inj.1
      rw [toNat_wordResidue_ofLength, UInt16.toNat_ofNat',
        Nat.mod_eq_of_lt (Nat.lt_trans (Nat.mod_lt _ hpos) d.toNat_lt), Nat.mod_add_mod]
      rfl
    simp only [rem_eq (Nat.ne_of_gt hpos), add_eq hsum, pure_bind, hword]
    rfl

/-- **Remainders are exact.**  A length other than zero has a divisor.  It keeps the remainder of
`2 ^ 32` by the length, and with it the remainder of any slot number, put together from those of its
two words, is that of the count.  No sum and no product on the way to either leaves thirty-two
bits. -/
theorem Divisor.residue_exact {d : UInt16} (hd : d ≠ 0) :
    ∃ v, of? d = .ok v ∧ checkedOf? d = pure (.ok v) ∧
      v.value = d ∧ v.wordResidue.toNat = 2 ^ 32 % d.toNat ∧
      ∀ n : SlotNumber,
        (v.residue n).toNat = n.toNat % d.toNat ∧ v.checkedResidue n = pure (v.residue n) := by
  have hof : of? d = .ok (ofLength d hd) := dif_neg hd
  refine ⟨ofLength d hd, hof, ?_, rfl, toNat_wordResidue_ofLength hd, fun n => ⟨?_, ?_⟩⟩
  · rw [checkedOf?_eq, hof]
  · exact toNat_residue_ofLength hd n
  · exact checkedResidue_eq _ n

/-- As 641 divides `2 ^ 32 + 1`, the remainder of `2 ^ 32` is as large as one can be. -/
theorem Divisor.residue_exact_lastSlot :
    (641 : UInt16) ≠ 0 ∧ ∃ v, of? 641 = .ok v ∧ v.wordResidue.toNat = 640 ∧
      (v.residue (.ofNat (2 ^ 40 - 1))).toNat = 384 := by
  have hne : (641 : UInt16) ≠ 0 := by decide
  obtain ⟨v, hof, -, -, hword, hresidue⟩ := residue_exact hne
  refine ⟨hne, v, hof, hword, ?_⟩
  rw [(hresidue _).1]
  decide

/-- The channel of a link in a slot. -/
def HoppingSequence.checkedChannelAt (h : HoppingSequence) (n : SlotNumber) (offset : UInt16) :
    Checked UInt8 := do
  let position ← h.divisor.checkedResidue (n.advance offset.toUInt32)
  get h.channels position.toNat

/-- The remainder by the number of channels is the place of one of them. -/
theorem HoppingSequence.checkedChannelAt_eq (h : HoppingSequence) (n : SlotNumber)
    (offset : UInt16) : h.checkedChannelAt n offset = pure (h.channelAt n offset) := by
  have hposition := h.divisor.residue_lt (n.advance offset.toUInt32)
  rw [h.value_eq_size] at hposition
  unfold checkedChannelAt
  rw [Divisor.checkedResidue_eq, pure_bind, get_eq hposition]
  rfl

/-- The links that are on in a slot. -/
def Schedule.checkedCurrent (s : Schedule) (now : SlotNumber) : Checked (List (UInt16 × Link)) := do
  let candidates ← s.frames.values.mapM fun f => do
    let timeslot ← f.divisor.checkedResidue now
    return (f.links.get? timeslot).map fun link => (f.id, link)
  return candidates.filterMap id

/-- Looking up what is on does not stop. -/
theorem Schedule.checkedCurrent_eq (s : Schedule) (now : SlotNumber) :
    s.checkedCurrent now = pure (s.current now) := by
  unfold checkedCurrent
  simp only [Divisor.checkedResidue_eq, pure_bind, List.mapM_pure, List.filterMap_map]
  rfl

/-! ## Indices -/

/-- The index that takes the place of an index. -/
def Shuffle.checkedApply (s : Shuffle) (index : UInt16) : Checked UInt16 :=
  if s.modulus = 0 then return index
  else do
    let product ← mul UInt32.size index.toNat s.multiplier.toNat
    let shuffled ← rem product s.modulus.toNat
    return .ofNat shuffled

/-- A shuffle divides by its modulus, which is not zero. -/
theorem Shuffle.checkedApply_eq (s : Shuffle) (index : UInt16) :
    s.checkedApply index = pure (s.apply index) := by
  have hindex := index.toNat_lt
  have hmultiplier := s.multiplier.toNat_lt
  have hproduct : index.toNat * s.multiplier.toNat < UInt32.size :=
    Nat.lt_of_lt_of_le (Nat.mul_lt_mul'' hindex hmultiplier) (by decide)
  unfold checkedApply
  by_cases hzero : s.modulus = 0
  · rw [if_pos hzero, apply, if_pos hzero]
  · have hne : s.modulus.toNat ≠ 0 := fun h => hzero (UInt16.toNat_inj.1 h)
    rw [if_neg hzero, mul_eq hproduct, pure_bind, rem_eq hne, pure_bind, ← toNat_apply hzero,
      UInt16.ofNat_toNat]

namespace Directory

/-- The index that stands for a place of the table. -/
def checkedShuffled (d : Directory) (raw : UInt16) : Checked UInt16 :=
  match d.shuffle with
  | some s => s.checkedApply raw
  | none => return raw

/-- The index of a node id. -/
def checkedIndexOfId? (d : Directory) (id : UInt16) : Checked (Option UInt16) :=
  match d.nodes with
  | [] => some <$> d.checkedShuffled id
  | nodes =>
    match nodes.findIdx? (·.1 = id) with
    | none => return none
    | some place =>
      if place < UInt16.size then some <$> d.checkedShuffled (.ofNat place) else return none

/-- The index of an address. -/
def checkedIndexOf? (d : Directory) (a : Address) : Checked (Option UInt16) :=
  match d.idOf? a with
  | none => return none
  | some id => d.checkedIndexOfId? id

/-- The index of a time source, if there is one. -/
def checkedSourceIndex? (d : Directory) : Option Address → Checked (Option UInt16)
  | none => return none
  | some a => d.checkedIndexOf? a

/-- Shuffling an index does not stop, with or without a shuffle. -/
theorem checkedShuffled_eq (d : Directory) (raw : UInt16) :
    d.checkedShuffled raw = pure (d.shuffled raw) := by
  unfold checkedShuffled shuffled
  cases d.shuffle with
  | none => rfl
  | some s => exact s.checkedApply_eq raw

/-- Looking up the index of an id does not stop. -/
theorem checkedIndexOfId?_eq (d : Directory) (id : UInt16) :
    d.checkedIndexOfId? id = pure (d.indexOfId? id) := by
  unfold checkedIndexOfId? indexOfId?
  simp only [checkedShuffled_eq, map_pure]
  cases d.nodes with
  | nil => rfl
  | cons n nodes =>
    cases hplace : (n :: nodes).findIdx? (·.1 = id) with
    | none => simp only [hplace, Option.bind_none]
    | some place =>
      simp only [hplace, Option.bind_some]
      split <;> rfl

/-- Nor does looking up that of an address, -/
theorem checkedIndexOf?_eq (d : Directory) (a : Address) :
    d.checkedIndexOf? a = pure (d.indexOf? a) := by
  unfold checkedIndexOf? indexOf?
  cases d.idOf? a with
  | none => rfl
  | some id => exact d.checkedIndexOfId?_eq id

/-- or of a time source, where there is one. -/
theorem checkedSourceIndex?_eq (d : Directory) (source : Option Address) :
    d.checkedSourceIndex? source = pure (source.bind d.indexOf?) := by
  cases source with
  | none => rfl
  | some a => exact d.checkedIndexOf?_eq a

end Directory

/-! ## Cells -/

namespace CellPlan

/-- The timeslot in which the node with this index sends its beacons. -/
def checkedBeaconSlot (plan : CellPlan) (index : UInt16) : Checked UInt16 := do
  let timeslot ← rem index.toNat plan.beaconPeriod.toNat
  return .ofNat timeslot

/-- The unicast cell of the node with this index. -/
def checkedCell (plan : CellPlan) (index : UInt16) : Checked Cell :=
  match plan.spillPeriod with
  | none => do
    let timeslot ← rem index.toNat plan.unicastPeriod.toNat
    return ⟨unicastFrame, .ofNat timeslot, unicastFrame⟩
  | some spill =>
    if plan.unicastPeriod ≤ index then do
      let rest ← sub index.toNat plan.unicastPeriod.toNat
      let timeslot ← rem rest spill.toNat
      return ⟨spillFrame, .ofNat timeslot, spillFrame⟩
    else return ⟨unicastFrame, index, unicastFrame⟩

/-- No slotframe of the plan has the length zero. -/
def HasLengths (plan : CellPlan) : Prop := ∀ g, plan.length? g ≠ some 0

variable {plan : CellPlan}

/-- There is a timeslot for beacons. -/
theorem HasLengths.beaconPeriod_ne_zero (h : plan.HasLengths) : plan.beaconPeriod ≠ 0 :=
  fun hzero => h beaconFrame (congrArg some hzero)

/-- There is a timeslot for unicast traffic. -/
theorem HasLengths.unicastPeriod_ne_zero (h : plan.HasLengths) : plan.unicastPeriod ≠ 0 :=
  fun hzero => h unicastFrame (congrArg some hzero)

/-- The remainder of the words is the word of the remainder. -/
theorem ofNat_mod (index period : UInt16) :
    UInt16.ofNat (index.toNat % period.toNat) = index % period := by
  rw [← UInt16.toNat_mod, UInt16.ofNat_toNat]

/-- A length that is not zero is not zero as a number. -/
theorem toNat_ne_zero {period : UInt16} (h : period ≠ 0) : period.toNat ≠ 0 :=
  fun hzero => h (UInt16.toNat_inj.1 hzero)

/-- A timeslot for beacons is found, and it is the one of the index. -/
theorem checkedBeaconSlot_eq (h : plan.HasLengths) (index : UInt16) :
    ∃ timeslot, plan.checkedBeaconSlot index = pure timeslot ∧
      plan.beaconSlot? index = some timeslot := by
  refine ⟨index % plan.beaconPeriod, ?_, beaconSlot?_eq h.beaconPeriod_ne_zero index⟩
  unfold checkedBeaconSlot
  rw [rem_eq (toNat_ne_zero h.beaconPeriod_ne_zero), pure_bind, ofNat_mod]

/-- Without lengths the search for a timeslot would stop. -/
example : { standard with beaconPeriod := 0 }.checkedBeaconSlot 3 = throw .zeroDivisor := rfl

/-- A cell is found, it is the one of the index, and it lies in its slotframe. -/
theorem exists_checkedCell (h : plan.HasLengths) (index : UInt16) :
    ∃ cell length, plan.checkedCell index = pure cell ∧ plan.cell? index = some cell ∧
      plan.length? cell.frame = some length ∧ cell.timeslot < length := by
  have hunicast := h.unicastPeriod_ne_zero
  unfold checkedCell cell?
  cases hspill : plan.spillPeriod with
  | none =>
    refine ⟨⟨unicastFrame, index % plan.unicastPeriod, unicastFrame⟩, plan.unicastPeriod, ?_, ?_,
      rfl, UInt16.mod_lt _ (UInt16.pos_iff_ne_zero.2 hunicast)⟩
    · rw [rem_eq (toNat_ne_zero hunicast), pure_bind, ofNat_mod]
    · simp only [wrap?, if_neg hunicast, Option.map_some]
  | some spill =>
    have hlength : plan.length? spillFrame = some spill := hspill
    have hne : spill ≠ 0 := fun hzero => h spillFrame (hlength.trans (congrArg some hzero))
    simp only []
    by_cases hle : plan.unicastPeriod ≤ index
    · have hle' := UInt16.le_iff_toNat_le.1 hle
      refine ⟨⟨spillFrame, (index - plan.unicastPeriod) % spill, spillFrame⟩, spill, ?_, ?_,
        hlength, UInt16.mod_lt _ (UInt16.pos_iff_ne_zero.2 hne)⟩
      · rw [if_pos hle, sub_eq hle', pure_bind, rem_eq (toNat_ne_zero hne), pure_bind,
          ← UInt16.toNat_sub_of_le _ _ hle, ofNat_mod]
      · simp only [if_pos hle, wrap?, if_neg hne, Option.map_some]
    · refine ⟨⟨unicastFrame, index, unicastFrame⟩, plan.unicastPeriod, ?_, ?_, rfl,
        UInt16.not_le.1 hle⟩
      · rw [if_neg hle]
      · rw [if_neg hle]

end CellPlan

end SlottedMesh
