import Mathlib.Algebra.Ring.Nat
import SlottedMesh.Time.Hopping

/-!
# Remainders as those of one number

A divisor takes the remainders of the two words of a slot number and puts them together.  What comes
out is the remainder of the count itself (`toNat_residue_ofLength`), as the divisor of a length
keeps the true remainder of `2 ^ 32` (`toNat_wordResidue_ofLength`) and nothing on the way leaves
thirty-two bits (`toNat_residue`).

For channel hopping this says which position of the sequence is read in a slot: that of the count
plus the channel offset, wrapped to forty bits (`positionAt_eq_wrapped`), and so that of the plain
sum as long as it does not wrap (`positionAt_eq`).
-/

namespace SlottedMesh

namespace Divisor

variable {d : UInt16}

/-- One more than a remainder of `2 ^ 32 - 1` has room in thirty-two bits. -/
theorem mod_add_one_lt (hd : d ≠ 0) : 4294967295 % d.toNat + 1 < 2 ^ 32 := by
  have hlt : d.toNat < 2 ^ 16 := d.toNat_lt
  have hmod := Nat.mod_lt 4294967295 (ofLength d hd).value_pos
  exact Nat.lt_of_le_of_lt hmod (Nat.lt_trans hlt (by decide))

/-- The divisor of a length keeps the remainder of `2 ^ 32` by it. -/
theorem toNat_wordResidue_ofLength (hd : d ≠ 0) :
    (ofLength d hd).wordResidue.toNat = 2 ^ 32 % d.toNat := by
  have hresidue : (4294967295 % d.toNat + 1) % d.toNat < 2 ^ 16 :=
    Nat.lt_trans (Nat.mod_lt _ (ofLength d hd).value_pos) d.toNat_lt
  show ((0xFFFFFFFF % d.toUInt32 + 1) % d.toUInt32).toUInt16.toNat = _
  rw [UInt32.toNat_toUInt16, UInt32.toNat_mod, UInt32.toNat_add, UInt32.toNat_mod,
    UInt16.toNat_toUInt32]
  show (4294967295 % d.toNat + 1) % 2 ^ 32 % d.toNat % 2 ^ 16 = _
  rw [Nat.mod_eq_of_lt (mod_add_one_lt hd), Nat.mod_eq_of_lt hresidue]
  exact Nat.mod_add_mod 4294967295 d.toNat 1

/-- What the high byte is worth has room in thirty-two bits. -/
theorem high_mul_wordResidue_lt (v : Divisor) (n : SlotNumber) :
    n.high.toNat * v.wordResidue.toNat < 2 ^ 32 :=
  Nat.lt_trans (Nat.mul_lt_mul'' n.high.toNat_lt v.wordResidue.toNat_lt) (by decide)

/-- So has the sum of two remainders. -/
theorem mod_add_mod_lt (v : Divisor) (j k : Nat) :
    j % v.value.toNat + k % v.value.toNat < 2 ^ 32 := by
  have hlt := v.value.toNat_lt
  have hj := Nat.mod_lt j v.value_pos
  have hk := Nat.mod_lt k v.value_pos
  omega

/-- The remainder, in numbers: nothing on the way is cut to its word. -/
theorem toNat_residue (v : Divisor) (n : SlotNumber) :
    (v.residue n).toNat =
      (n.low.toNat % v.value.toNat +
        n.high.toNat * v.wordResidue.toNat % v.value.toNat) % v.value.toNat := by
  have hresidue (k : Nat) : k % v.value.toNat < 2 ^ 16 :=
    Nat.lt_trans (Nat.mod_lt k v.value_pos) v.value.toNat_lt
  show ((n.low % v.value.toUInt32 + n.high.toUInt32 * v.wordResidue.toUInt32 %
    v.value.toUInt32) % v.value.toUInt32).toUInt16.toNat = _
  rw [UInt32.toNat_toUInt16, UInt32.toNat_mod, UInt32.toNat_add, UInt32.toNat_mod,
    UInt32.toNat_mod, UInt32.toNat_mul, UInt16.toNat_toUInt32, UInt16.toNat_toUInt32,
    UInt8.toNat_toUInt32, Nat.mod_eq_of_lt (v.high_mul_wordResidue_lt n),
    Nat.mod_eq_of_lt (v.mod_add_mod_lt _ _), Nat.mod_eq_of_lt (hresidue _)]

/-- The remainder of a slot number is that of its count. -/
theorem toNat_residue_ofLength (hd : d ≠ 0) (n : SlotNumber) :
    ((ofLength d hd).residue n).toNat = n.toNat % d.toNat := by
  rw [toNat_residue, toNat_wordResidue_ofLength]
  show (n.low.toNat % d.toNat + n.high.toNat * (2 ^ 32 % d.toNat) % d.toNat) % d.toNat = _
  calc (n.low.toNat % d.toNat + n.high.toNat * (2 ^ 32 % d.toNat) % d.toNat) % d.toNat
      = (n.low.toNat + n.high.toNat * 2 ^ 32) % d.toNat := by
        rw [← Nat.add_mod, Nat.add_mod, Nat.mul_mod_mod, ← Nat.add_mod]
    _ = n.toNat % d.toNat := by rw [Nat.add_comm]; rfl

end Divisor

namespace HoppingSequence

variable {h : HoppingSequence} {channels : Array UInt8} {n : SlotNumber} {offset : UInt16}

/-- The position of the sequence that a link with this channel offset reads in slot `n`. -/
def positionAt (h : HoppingSequence) (n : SlotNumber) (offset : UInt16) : Nat :=
  (h.divisor.residue (n.advance offset.toUInt32)).toNat

/-- The position is one of a channel. -/
theorem positionAt_lt (h : HoppingSequence) (n : SlotNumber) (offset : UInt16) :
    h.positionAt n offset < h.channels.size :=
  h.value_eq_size ▸ h.divisor.residue_lt _

/-- The channel of a link is the one at the position that the link reads. -/
theorem getElem?_positionAt (h : HoppingSequence) (n : SlotNumber) (offset : UInt16) :
    h.channels[h.positionAt n offset]? = some (h.channelAt n offset) :=
  Array.getElem?_eq_getElem (h.positionAt_lt n offset)

/-- A sequence over some channels has one at least and no more than sixteen bits can count, and
its divisor is that of their number. -/
theorem ofChannels_eq_ok (hh : ofChannels channels = .ok h) :
    h.channels = channels ∧ channels.size < 2 ^ 16 ∧
      ∃ hne, h.divisor = .ofLength (.ofNat channels.size) hne := by
  unfold ofChannels at hh
  split at hh
  · rename_i hsize
    split at hh
    · cases hh
    · rename_i hne
      cases hh
      exact ⟨rfl, hsize, hne, rfl⟩
  · cases hh

/-- Any channels are a sequence, if there is one at least and sixteen bits can count them. -/
theorem exists_ofChannels (hpos : 0 < channels.size) (hsize : channels.size < 2 ^ 16) :
    ∃ h, ofChannels channels = .ok h := by
  have hne : UInt16.ofNat channels.size ≠ 0 := by
    intro hzero
    have hmod := congrArg UInt16.toNat hzero
    rw [UInt16.toNat_ofNat', Nat.mod_eq_of_lt hsize, UInt16.toNat_zero] at hmod
    omega
  unfold ofChannels
  rw [dif_pos (show channels.size < UInt16.size from hsize), dif_neg hne]
  exact ⟨_, rfl⟩

/-- More channels than sixteen bits can count are refused as if there were none. -/
theorem ofChannels_of_le (hsize : 2 ^ 16 ≤ channels.size) :
    ofChannels channels = .error .zeroDivisor :=
  dif_neg (Nat.not_lt.2 hsize)

/-- The position is the slot's count plus the offset, wrapped to forty bits and then counted round
the sequence. -/
theorem positionAt_eq_wrapped (hh : ofChannels channels = .ok h) (n : SlotNumber)
    (offset : UInt16) :
    h.positionAt n offset = (n.toNat + offset.toNat) % 2 ^ 40 % channels.size := by
  obtain ⟨-, hsize, hne, hdivisor⟩ := ofChannels_eq_ok hh
  unfold positionAt
  rw [hdivisor, Divisor.toNat_residue_ofLength, SlotNumber.toNat_advance, UInt16.toNat_toUInt32,
    UInt16.toNat_ofNat', Nat.mod_eq_of_lt hsize]
  rfl

/-- Where the sum does not wrap, the position is the sum counted round the sequence. -/
theorem positionAt_eq (hh : ofChannels channels = .ok h)
    (hroom : n.toNat + offset.toNat < 2 ^ 40) :
    h.positionAt n offset = (n.toNat + offset.toNat) % channels.size := by
  rw [positionAt_eq_wrapped hh, Nat.mod_eq_of_lt hroom]

end HoppingSequence

end SlottedMesh
