import SlottedMesh.Time.SlotNumber

/-!
# Remainders of slot numbers

Every slot, each slotframe asks for the slot number's remainder by its length.  A `Divisor` keeps
the length beside the remainder of `2 ^ 32`, so that the remainder of a forty-bit number is put
together from the remainders of its two words and no step leaves thirty-two bits.
-/

namespace SlottedMesh

/-- Why a time quantity is refused. -/
inductive TimingError where
  /-- A remainder by zero was asked for. -/
  | zeroDivisor
  /-- Time cannot be counted in slots of no length. -/
  | zeroSlotLength
deriving DecidableEq

/-- What is told about the refusal. -/
def TimingError.message : TimingError → String
  | .zeroDivisor => "ASN divisor must be non-zero"
  | .zeroSlotLength => "slot duration must be non-zero"

/-- A length to divide slot numbers by. -/
structure Divisor where
  /-- The length itself. -/
  value : UInt16
  /-- The remainder of `2 ^ 32` by `value`: what one unit of the high byte is worth. -/
  wordResidue : UInt16
  /-- A divisor is never zero. -/
  value_ne_zero : value ≠ 0
deriving DecidableEq

namespace Divisor

/-- The divisor of a non-zero length.  As `2 ^ 32` itself is no thirty-two bit number, its remainder
is that of `2 ^ 32 - 1` plus one, reduced once more. -/
def ofLength (d : UInt16) (hd : d ≠ 0) : Divisor where
  value := d
  wordResidue := (((0xFFFFFFFF : UInt32) % d.toUInt32 + 1) % d.toUInt32).toUInt16
  value_ne_zero := hd

/-- The divisor of a length, which must not be zero. -/
def of? (d : UInt16) : Except TimingError Divisor :=
  if h : d = 0 then .error .zeroDivisor else .ok (ofLength d h)

/-- The remainder of a slot number, from the remainders of its two words. -/
def residue (d : Divisor) (n : SlotNumber) : UInt16 :=
  let low := n.low % d.value.toUInt32
  let high := n.high.toUInt32 * d.wordResidue.toUInt32 % d.value.toUInt32
  ((low + high) % d.value.toUInt32).toUInt16

/-- A divisor is positive. -/
theorem value_pos (d : Divisor) : 0 < d.value.toNat :=
  Nat.pos_of_ne_zero fun h => d.value_ne_zero (UInt16.toNat_inj.1 (by simpa using h))

/-- A remainder is smaller than the length it is taken by. -/
theorem residue_lt (d : Divisor) (n : SlotNumber) : (d.residue n).toNat < d.value.toNat := by
  have hd := d.value_pos
  have hlt := d.value.toNat_lt
  simp only [residue, UInt32.toNat_toUInt16, UInt32.toNat_mod, UInt16.toNat_toUInt32]
  exact Nat.lt_of_le_of_lt (Nat.mod_le _ _) (Nat.mod_lt _ hd)

end Divisor

end SlottedMesh
