import SlottedMesh.Proofs.Schedule.WellFormed
import SlottedMesh.Proofs.Time.Residue

/-!
# What is on in a slot

In each slot a schedule offers at most one link of each slotframe, the one at the timeslot that is
on.  Which timeslot is on depends on the length of the slotframe alone: it is the remainder of the
slot's count by the length (`mem_current_iff_mod`).
-/

namespace SlottedMesh.Schedule

variable {s : Schedule} {id timeslot : UInt16} {l : Link} {now : SlotNumber}

/-- A link is on in a slot if it is at the timeslot that is on in its slotframe. -/
theorem mem_current_iff (hs : s.WellFormed) :
    (id, l) ∈ s.current now ↔
      ∃ f, s.frame? id = some f ∧ f.links.get? (f.timeslotAt now) = some l := by
  unfold current
  rw [List.mem_filterMap]
  constructor
  · rintro ⟨f, hf, hl⟩
    obtain ⟨l', hl', heq⟩ := Option.map_eq_some_iff.1 hl
    cases heq
    obtain ⟨k, hk⟩ := Table.mem_values_iff.1 hf
    rw [(hs.fits hk).id_eq]
    exact ⟨f, hk, hl'⟩
  · rintro ⟨f, hf, hl⟩
    refine ⟨f, Table.mem_values_iff.2 ⟨id, hf⟩, ?_⟩
    rw [Slotframe.current?, hl, (hs.fits hf).id_eq]
    rfl

/-- A link that is there is on in the slots in which its timeslot is. -/
theorem mem_current_iff_timeslotAt (hs : s.WellFormed) {f : Slotframe} (hf : s.frame? id = some f)
    (hl : s.link? id timeslot = some l) :
    (id, l) ∈ s.current now ↔ f.timeslotAt now = timeslot := by
  rw [mem_current_iff hs]
  rw [link?_eq_get? hf] at hl
  constructor
  · rintro ⟨f', hf', hl'⟩
    rw [hf] at hf'
    cases hf'
    rw [← (hs.fits hf).timeslot_eq hl', (hs.fits hf).timeslot_eq hl]
  · rintro rfl
    exact ⟨f, hf, hl⟩

/-- The timeslot that is on is the remainder of the slot's count by the length. -/
theorem toNat_timeslotAt {f : Slotframe} (hf : f.Fits id) (now : SlotNumber) :
    (f.timeslotAt now).toNat = now.toNat % f.length.toNat := by
  unfold Slotframe.timeslotAt
  rw [hf.divisor_eq]
  exact Divisor.toNat_residue_ofLength f.divisor.value_ne_zero now

/-- A link is at a place of a slotframe that is there. -/
theorem exists_length? (hl : s.link? id timeslot = some l) :
    ∃ length, s.length? id = some length := by
  obtain ⟨f, hf, -⟩ := link?_eq_some_iff.1 hl
  exact ⟨f.length, by rw [length?, hf, Option.map_some]⟩

/-- A link is at a timeslot that its slotframe has. -/
theorem timeslot_lt_length (hs : s.WellFormed) {length : UInt16}
    (hlength : s.length? id = some length) (hl : s.link? id timeslot = some l) :
    timeslot.toNat < length.toNat := by
  obtain ⟨f, hf, rfl⟩ := Option.map_eq_some_iff.1 hlength
  rw [link?_eq_get? hf] at hl
  exact UInt16.lt_iff_toNat_lt.1 ((hs.fits hf).timeslot_lt hl)

/-- A link of a slotframe is on in the slots whose count leaves its timeslot. -/
theorem mem_current_iff_mod (hs : s.WellFormed) {length : UInt16}
    (hlength : s.length? id = some length) (hl : s.link? id timeslot = some l) :
    (id, l) ∈ s.current now ↔ now.toNat % length.toNat = timeslot.toNat := by
  obtain ⟨f, hf, rfl⟩ := Option.map_eq_some_iff.1 hlength
  rw [mem_current_iff_timeslotAt hs hf hl, ← UInt16.toNat_inj, toNat_timeslotAt (hs.fits hf)]

end SlottedMesh.Schedule
