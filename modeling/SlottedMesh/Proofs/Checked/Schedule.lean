import Mathlib.Algebra.Order.BigOperators.Group.List
import Mathlib.Algebra.Ring.Nat
import SlottedMesh.Proofs.Cells.Orderly
import SlottedMesh.Proofs.Checked.Arithmetic

/-!
# Schedules without a stop

The number of links goes up with each link that is made and down with each that is taken out.  It
goes down only where there is a link, and in a schedule with the slotframes of a plan, of which
there are four at most, it stays small (`HasFramesOf.linkCount_le`).  So neither an operation on a
schedule nor a sweep or a join stops:

* `checkedPutLink_eq` and `checkedRemoveLinkAt_eq`, for the operations;
* `checkedSweep_eq` and `exists_checkedRenewAll`, for the loops over the unicast slotframes, which
  count the links that they change.
-/

namespace SlottedMesh

/-! ## How many links there are -/

namespace Table

variable {α : Type}

/-- Where keys are small, there are not many entries. -/
theorem size_le_of_forall_lt {t : Table α} {bound : Nat}
    (h : ∀ k, (t.get? k).isSome → k.toNat < bound) : t.size ≤ bound := by
  have hsubset : t.keys ⊆ (List.range bound).map .ofNat := fun k hk =>
    List.mem_map.2 ⟨k.toNat, List.mem_range.2 (h k (mem_keys_iff.1 hk)), UInt16.ofNat_toNat⟩
  have hlength := (t.nodup_keys.subperm hsubset).length_le
  rwa [keys, List.length_map, List.length_map, List.length_range] at hlength

/-- A table has no more entries than there are keys. -/
theorem size_le (t : Table α) : t.size ≤ UInt16.size :=
  size_le_of_forall_lt fun k _ => k.toNat_lt

/-- So it has no more values. -/
theorem length_values_le (t : Table α) : t.values.length ≤ UInt16.size := by
  rw [values, List.length_map]
  exact t.size_le

/-- If no entry weighs more than a bound, the whole weighs no more than the bound for each. -/
theorem weigh_le {t : Table α} {w : α → Nat} {bound : Nat} (h : ∀ v, w v ≤ bound) :
    t.weigh w ≤ t.size * bound := by
  have hsum := List.sum_le_card_nsmul (t.values.map w) bound fun x hx => by
    obtain ⟨v, -, rfl⟩ := List.mem_map.1 hx
    exact h v
  rwa [nsmul_eq_mul, values, List.length_map, List.length_map] at hsum

end Table

namespace Schedule

open Checked

/-- A schedule with the slotframes of a plan. -/
structure HasFramesOf (plan : CellPlan) (s : Schedule) : Prop where
  /-- What is kept twice agrees. -/
  wellFormed : s.WellFormed
  /-- The slotframes are those of the plan. -/
  length?_eq (g : UInt16) : s.length? g = plan.length? g

variable {plan : CellPlan} {s s' : Schedule}

/-- What leaves the slotframes leaves those of the plan. -/
theorem HasFramesOf.of_sameFrames (h : s.HasFramesOf plan) (hs' : s'.WellFormed)
    (hframes : SameFrames s s') : s'.HasFramesOf plan :=
  ⟨hs', fun g => (hframes.length?_eq g).trans (h.length?_eq g)⟩

/-- Slotframes have lengths, and so have those of the plan. -/
theorem HasFramesOf.length?_ne (h : s.HasFramesOf plan) (g : UInt16) : plan.length? g ≠ some 0 := by
  rw [← h.length?_eq]
  exact fun hzero => ne_zero_of_length?_eq_some hzero rfl

/-- No slotframe has more links than timeslots, and there are four slotframes at most. -/
theorem HasFramesOf.linkCount_le (h : s.HasFramesOf plan) : s.linkCount ≤ 4 * UInt16.size := by
  have hframes : s.frames.size ≤ 4 := by
    refine Table.size_le_of_forall_lt fun g hg => ?_
    have hlength : (plan.length? g).isSome := by
      rw [← h.length?_eq, length?, Option.isSome_map]
      exact hg
    exact Nat.lt_succ_of_le (UInt16.le_iff_toNat_le.1 (CellPlan.le_three_of_length? hlength))
  rw [h.wellFormed.linkCount_eq, length_links]
  exact (Table.weigh_le fun f => f.links.size_le).trans (Nat.mul_le_mul_right _ hframes)

/-- Where there is a link, the count can go down. -/
theorem WellFormed.one_le_linkCount (h : s.WellFormed) {frame timeslot : UInt16} {f : Slotframe}
    {l : Link} (hf : s.frame? frame = some f) (hl : f.links.get? timeslot = some l) :
    1 ≤ s.linkCount := by
  have hsize := Table.size_erase_of_some hl
  have hlinks := length_links_withLinks hf (f.links.erase timeslot)
  rw [h.linkCount_eq]
  omega

/-! ## Operations -/

/-- Give the link at a timeslot these attributes; where there is none, make one. -/
def checkedPutLink (s : Schedule) (frame timeslot : UInt16) (attributes : Link.Attributes) :
    Checked (Schedule × Except ScheduleError Link) :=
  match s.frame? frame with
  | none => return (s, .error (.unknownFrame frame))
  | some f =>
    if f.length ≤ timeslot then return (s, .error (.timeslotOutOfRange frame timeslot f.length))
    else match f.links.get? timeslot with
      | some old =>
        let link := { old with toAttributes := attributes }
        return (s.withLinks frame f (f.links.insert timeslot link), .ok link)
      | none =>
        if s.maxLinks ≤ s.linkCount then return (s, .error (.full .link s.maxLinks))
        else do
          let linkCount ← add UInt32.size s.linkCount 1
          let link : Link :=
            { attributes with handle := s.nextHandle, frame, timeslot, lease := none }
          return ({ s.withLinks frame f (f.links.insert timeslot link) with
            linkCount, nextHandle := s.nextHandle + 1 }, .ok link)

/-- Take out what is at a timeslot, if there is something. -/
def checkedRemoveLinkAt (s : Schedule) (frame timeslot : UInt16) :
    Checked (Schedule × Except ScheduleError (Option Link)) :=
  match s.frame? frame with
  | none => return (s, .error (.unknownFrame frame))
  | some f =>
    match f.links.get? timeslot with
    | none => return (s, .ok none)
    | some link => do
      let linkCount ← sub s.linkCount 1
      return ({ s.withLinks frame f (f.links.erase timeslot) with linkCount }, .ok (some link))

/-- A link that is put has room in the count, which a schedule of the plan keeps small. -/
theorem checkedPutLink_eq (h : s.HasFramesOf plan) (frame timeslot : UInt16)
    (attributes : Link.Attributes) :
    s.checkedPutLink frame timeslot attributes =
      pure (s.settle (s.putLink frame timeslot attributes)) := by
  have hroom : s.linkCount + 1 < UInt32.size := by
    have hle := h.linkCount_le
    unfold UInt16.size at hle
    unfold UInt32.size
    omega
  rw [putLink_eq]
  unfold checkedPutLink
  cases s.frame? frame with
  | none => rfl
  | some f =>
    by_cases hrange : f.length ≤ timeslot
    · simp only [if_pos hrange, settle]
    · simp only [if_neg hrange]
      cases f.links.get? timeslot with
      | some old => rfl
      | none =>
        by_cases hfull : s.maxLinks ≤ s.linkCount
        · simp only [if_pos hfull, settle]
        · simp only [if_neg hfull, add_eq hroom, pure_bind, settle]

/-- A link that is taken out was counted. -/
theorem checkedRemoveLinkAt_eq (h : s.WellFormed) (frame timeslot : UInt16) :
    s.checkedRemoveLinkAt frame timeslot = pure (s.settle (s.removeLinkAt frame timeslot)) := by
  rw [removeLinkAt_eq]
  unfold checkedRemoveLinkAt
  cases hf : s.frame? frame with
  | none => rfl
  | some f =>
    cases hl : f.links.get? timeslot with
    | none => simp only [hl, settle]
    | some l => simp only [hl, sub_eq (h.one_le_linkCount hf hl), pure_bind, settle]

end Schedule

/-! ## Sweeps and joins -/

namespace Planner

open Checked Schedule

/-- Carry out the verdict on the link at a timeslot; the count goes up if it changes something. -/
def checkedCarryOut (frame : UInt16) (link : Link) (verdict : Verdict) (s : Schedule)
    (count : Nat) : Checked (Schedule × Nat) :=
  match verdict with
  | .keep => return (s, count)
  | .remove => do
    match ← s.checkedRemoveLinkAt frame link.timeslot with
    | (s', .ok _) => return (s', ← add UInt32.size count 1)
    | (s', .error _) => return (s', count)
  | .reduce options peer => do
    match ← s.checkedPutLink frame link.timeslot ⟨options, .normal, peer, link.channelOffset⟩ with
    | (s', .ok _) => return (s', ← add UInt32.size count 1)
    | (s', .error _) => return (s', count)

/-- Sweep one slotframe: judge all its links as they are, then carry out the verdicts. -/
def checkedSweepFrame (p : Planner) (now : SlotNumber) (s : Schedule) (count : Nat)
    (frame : UInt16) : Checked (Schedule × Nat) :=
  match s.frame? frame with
  | none => return (s, count)
  | some f =>
    f.links.values.foldlM
      (fun (s, count) link => checkedCarryOut frame link (p.verdict now link) s count) (s, count)

/-- Sweep the unicast slotframes in slot `now`; the number says how many links were changed. -/
def checkedSweep (p : Planner) (now : SlotNumber) (s : Schedule) : Checked (Schedule × Nat) :=
  p.plan.unicastFrames.foldlM (fun (s, count) frame => p.checkedSweepFrame now s count frame) (s, 0)

/-- Start the lease of a link afresh, if it has one, and count it. -/
def checkedRenew (now : SlotNumber) (s : Schedule) (count : Nat) (link : Link) :
    Checked (Schedule × Nat) :=
  match link.lease with
  | none => return (s, count)
  | some _ => do
    let count ← add UInt32.size count 1
    return (s.setLease link.frame link.timeslot (some (.fresh now)), count)

/-- Start the leases of one slotframe afresh. -/
def checkedRenewFrame (now : SlotNumber) (s : Schedule) (count : Nat) (frame : UInt16) :
    Checked (Schedule × Nat) :=
  match s.frame? frame with
  | none => return (s, count)
  | some f =>
    f.links.values.foldlM (fun (s, count) link => checkedRenew now s count link) (s, count)

/-- Start every lease afresh in slot `now`; the number says how many there are. -/
def checkedRenewAll (p : Planner) (now : SlotNumber) (s : Schedule) : Checked (Schedule × Nat) :=
  p.plan.unicastFrames.foldlM (fun (s, count) frame => checkedRenewFrame now s count frame) (s, 0)

variable {p : Planner} {now : SlotNumber} {plan : CellPlan} {s : Schedule}

/-- A verdict is carried out without a stop, and counts one link at most. -/
theorem checkedCarryOut_eq (h : s.HasFramesOf plan) (frame : UInt16) (link : Link) (v : Verdict)
    (count : Nat) (hcount : count + 1 < UInt32.size) :
    checkedCarryOut frame link v s count = pure (carryOut frame link v s count) ∧
      (carryOut frame link v s count).1.HasFramesOf plan ∧
      (carryOut frame link v s count).2 ≤ count + 1 := by
  cases v with
  | keep => exact ⟨rfl, h, Nat.le_succ count⟩
  | remove =>
    simp only [checkedCarryOut, carryOut_remove, checkedRemoveLinkAt_eq h.wellFormed, pure_bind]
    cases hremove : s.removeLinkAt frame link.timeslot with
    | error e => exact ⟨rfl, h, Nat.le_succ count⟩
    | ok r =>
      have hset := setAt_removeLinkAt h.wellFormed hremove
      simp only [add_eq hcount]
      exact ⟨rfl, h.of_sameFrames hset.wellFormed hset.sameFrames, Nat.le_refl _⟩
  | reduce options peer =>
    simp only [checkedCarryOut, carryOut_reduce, checkedPutLink_eq h, pure_bind]
    cases hput : s.putLink frame link.timeslot ⟨options, .normal, peer, link.channelOffset⟩ with
    | error e => exact ⟨rfl, h, Nat.le_succ count⟩
    | ok r =>
      have hset := (setAt_putLink h.wellFormed hput).2
      simp only [add_eq hcount]
      exact ⟨rfl, h.of_sameFrames hset.wellFormed hset.sameFrames, Nat.le_refl _⟩

/-- One slotframe is swept without a stop, and counts no more links than it has timeslots. -/
theorem checkedSweepFrame_eq (p : Planner) (now : SlotNumber) (h : s.HasFramesOf plan)
    (count : Nat) (hcount : count + UInt16.size < UInt32.size) (frame : UInt16) :
    p.checkedSweepFrame now s count frame = pure (p.sweepFrame now s count frame) ∧
      (p.sweepFrame now s count frame).1.HasFramesOf plan ∧
      (p.sweepFrame now s count frame).2 ≤ count + UInt16.size := by
  cases hf : s.frame? frame with
  | none =>
    unfold checkedSweepFrame sweepFrame
    rw [hf]
    exact ⟨rfl, h, Nat.le_add_right _ _⟩
  | some f =>
    have hsize := f.links.length_values_le
    have hsweep : p.sweepFrame now s count frame = f.links.values.foldl
        (fun (s, count) link => carryOut frame link (p.verdict now link) s count) (s, count) := by
      unfold sweepFrame
      rw [hf]
    obtain ⟨b, heq, ⟨hb, hkept⟩, hle⟩ := exists_foldlM_count
      (fun (s, count) link => checkedCarryOut frame link (p.verdict now link) s count)
      (fun links b => links.foldl (fun (s, count) link =>
        carryOut frame link (p.verdict now link) s count) b = p.sweepFrame now s count frame ∧
        b.1.HasFramesOf plan) 1
      (fun l links b hb hroom => by
        obtain ⟨hfold, hs⟩ := hb
        obtain ⟨heq, hkept, hle⟩ := checkedCarryOut_eq hs frame l (p.verdict now l) b.2 hroom
        exact ⟨_, heq, ⟨hfold, hkept⟩, hle⟩)
      f.links.values (s, count) ⟨hsweep.symm, h⟩ (by simp only []; omega)
    have hb : b = p.sweepFrame now s count frame := hb
    rw [← hb]
    refine ⟨?_, hkept, hle.trans (by simp only []; omega)⟩
    unfold checkedSweepFrame
    rw [hf]
    exact heq

/-- A plan has two unicast slotframes at most. -/
theorem length_unicastFrames_le (plan : CellPlan) : plan.unicastFrames.length ≤ 2 := by
  unfold CellPlan.unicastFrames
  split <;> decide

/-- A count of the links of the unicast slotframes has room in a word. -/
theorem length_unicastFrames_mul_lt (plan : CellPlan) :
    plan.unicastFrames.length * UInt16.size < UInt32.size :=
  Nat.lt_of_le_of_lt (Nat.mul_le_mul_right _ (length_unicastFrames_le plan)) (by decide)

/-- A sweep does not stop, and it leaves the slotframes as they are. -/
theorem checkedSweep_eq (h : s.HasFramesOf plan) :
    p.checkedSweep now s = pure (p.sweep now s) ∧ (p.sweep now s).1.HasFramesOf plan := by
  obtain ⟨b, heq, ⟨hb, hkept⟩, -⟩ := exists_foldlM_count
    (fun (s, count) frame => p.checkedSweepFrame now s count frame)
    (fun frames b => frames.foldl (fun (s, count) frame => p.sweepFrame now s count frame) b =
      p.sweep now s ∧ b.1.HasFramesOf plan) UInt16.size
    (fun frame frames b hb hroom => by
      obtain ⟨hfold, hs⟩ := hb
      obtain ⟨heq, hkept, hle⟩ := checkedSweepFrame_eq p now hs b.2 hroom frame
      exact ⟨_, heq, ⟨hfold, hkept⟩, hle⟩)
    p.plan.unicastFrames (s, 0) ⟨rfl, h⟩
    (by rw [Nat.zero_add]; exact length_unicastFrames_mul_lt p.plan)
  have hb : b = p.sweep now s := hb
  subst hb
  exact ⟨heq, hkept⟩

/-- A lease starts afresh without a stop if it can be counted. -/
theorem exists_checkedRenew (now : SlotNumber) (s : Schedule) (count : Nat)
    (hcount : count + 1 < UInt32.size) (link : Link) :
    ∃ n, checkedRenew now s count link = pure (renew now s link, n) ∧ n ≤ count + 1 := by
  unfold checkedRenew renew
  cases link.lease with
  | none => exact ⟨count, rfl, Nat.le_succ count⟩
  | some lease =>
    refine ⟨count + 1, ?_, Nat.le_refl _⟩
    simp only [add_eq hcount, pure_bind]

/-- The leases of a slotframe, started afresh. -/
def renewFrame (now : SlotNumber) (s : Schedule) (frame : UInt16) : Schedule :=
  match s.frame? frame with
  | none => s
  | some f => f.links.values.foldl (renew now) s

/-- The leases of one slotframe start afresh without a stop. -/
theorem exists_checkedRenewFrame (now : SlotNumber) (s : Schedule) (count : Nat)
    (hcount : count + UInt16.size < UInt32.size) (frame : UInt16) :
    ∃ n, checkedRenewFrame now s count frame = pure (renewFrame now s frame, n) ∧
      n ≤ count + UInt16.size := by
  unfold checkedRenewFrame renewFrame
  cases s.frame? frame with
  | none => exact ⟨count, rfl, Nat.le_add_right _ _⟩
  | some f =>
    have hsize := f.links.length_values_le
    obtain ⟨⟨s', n⟩, heq, hs', hle⟩ := exists_foldlM_count
      (fun (s, count) link => checkedRenew now s count link)
      (fun links b => links.foldl (renew now) b.1 = f.links.values.foldl (renew now) s) 1
      (fun l links b hfold hroom => by
        obtain ⟨n, heq, hle⟩ := exists_checkedRenew now b.1 b.2 hroom l
        exact ⟨_, heq, hfold, hle⟩)
      f.links.values (s, count) rfl (by simp only []; omega)
    have hs' : s' = f.links.values.foldl (renew now) s := hs'
    subst hs'
    exact ⟨n, heq, hle.trans (by simp only []; omega)⟩

/-- A join does not stop. -/
theorem exists_checkedRenewAll (p : Planner) (now : SlotNumber) (s : Schedule) :
    ∃ n, p.checkedRenewAll now s = pure (p.renewAll now s, n) := by
  obtain ⟨⟨s', n⟩, heq, hs', -⟩ := exists_foldlM_count
    (fun (s, count) frame => checkedRenewFrame now s count frame)
    (fun frames b => frames.foldl (renewFrame now) b.1 = p.renewAll now s) UInt16.size
    (fun frame frames b hfold hroom => by
      obtain ⟨n, heq, hle⟩ := exists_checkedRenewFrame now b.1 b.2 hroom frame
      exact ⟨_, heq, hfold, hle⟩)
    p.plan.unicastFrames (s, 0) rfl
    (by rw [Nat.zero_add]; exact length_unicastFrames_mul_lt p.plan)
  have hs' : s' = p.renewAll now s := hs'
  subst hs'
  exact ⟨n, heq⟩

end Planner

end SlottedMesh
