import Mathlib.Algebra.Group.Nat.Defs
import SlottedMesh.Time.SlotNumber

/-!
# Elapsed slots

How many slots lie from one slot number forward to another, counted round all `2 ^ 40` of them.
`SlotNumber.since` sees the low words only and takes everything beyond `2 ^ 31` slots for the past;
`since_eq_elapsed` says where it tells the truth, and `since_eq_sub` that it does so between any two
slots of a window of fewer than `2 ^ 31`.
-/

namespace SlottedMesh.SlotNumber

/-- Slot numbers wrap at forty bits. -/
theorem modulus_eq : modulus = 2 ^ 40 := rfl

/-- The number of slots from `m` forward to `n`, round all slot numbers. -/
def elapsed (n m : SlotNumber) : Nat := (n.toNat + (modulus - m.toNat)) % modulus

/-- No slots pass from a slot to itself. -/
theorem elapsed_self (n : SlotNumber) : n.elapsed n = 0 := by
  have hn := n.toNat_lt
  simp only [elapsed, modulus_eq] at *
  omega

/-- The next slot is one slot further away, unless that is all the way round. -/
theorem elapsed_advance_one {n m : SlotNumber} (h : n.elapsed m + 1 < modulus) :
    (n.advance 1).elapsed m = n.elapsed m + 1 := by
  have hm := m.toNat_lt
  have hstep := n.toNat_advance 1
  rw [UInt32.toNat_one] at hstep
  simp only [elapsed, modulus_eq] at *
  omega

/-! ## The distance in the low words -/

/-- The distance in the low words is the difference of the counts, wrapped to thirty-two bits. -/
theorem since_eq_bmod (n m : SlotNumber) :
    n.since m = ((n.toNat : Int) - m.toNat).bmod (2 ^ 32) := by
  have hn := n.low.toNat_lt
  have hm := m.low.toNat_lt
  have hlow : n.since m = ((n.low.toNat : Int) - m.low.toNat).bmod (2 ^ 32) := by
    show (n.low - m.low).toBitVec.toInt = _
    rw [BitVec.toInt_eq_toNat_bmod]
    show ((n.low - m.low).toNat : Int).bmod (2 ^ 32) = _
    rw [UInt32.toNat_sub]
    simp only [Int.bmod_def]
    omega
  rw [hlow]
  simp only [toNat, UInt32.size, Int.bmod_def]
  omega

/-- Up to `2 ^ 31` slots, the distance in the low words is the number of elapsed slots. -/
theorem since_eq_elapsed {n m : SlotNumber} (h : n.elapsed m < 2 ^ 31) :
    n.since m = n.elapsed m := by
  have hn := n.toNat_lt
  have hm := m.toNat_lt
  rw [since_eq_bmod]
  simp only [elapsed, modulus_eq, Int.bmod_def] at *
  omega

/-- Between two slots of a window of fewer than `2 ^ 31`, the distance in the low words is the
difference of their places in the window. -/
theorem since_eq_sub {n m t : SlotNumber} (hn : n.elapsed t < 2 ^ 31) (hm : m.elapsed t < 2 ^ 31) :
    n.since m = (n.elapsed t : Int) - m.elapsed t := by
  have hn' := n.toNat_lt
  have hm' := m.toNat_lt
  have ht := t.toNat_lt
  rw [since_eq_bmod]
  simp only [elapsed, modulus_eq, Int.bmod_def] at *
  omega

end SlottedMesh.SlotNumber
