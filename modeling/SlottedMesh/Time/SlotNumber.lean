import SlottedMesh.Text.Numeral

/-!
# Absolute slot numbers

A network counts its timeslots from the moment it forms.  The count is forty bits wide, wraps to
zero after the last, and is kept in two words: a low word of thirty-two bits and a high byte.
`toNat` is the count as one number; `toNat_advance` and `toNat_retreat` say that moving by a number
of slots, with a carry or borrow between the words, is addition and subtraction modulo `2 ^ 40`.
The distance `since` looks at the low words only.
-/

namespace SlottedMesh

/-- A slot count in its two words. -/
structure SlotNumber where
  /-- The eight most significant bits. -/
  high : UInt8
  /-- The thirty-two least significant bits. -/
  low : UInt32
deriving DecidableEq, Inhabited

namespace SlotNumber

/-- How many slot numbers there are. -/
def modulus : Nat := UInt8.size * UInt32.size

/-- The slot in which a network forms. -/
def zero : SlotNumber := ⟨0, 0⟩

/-- The count as one number. -/
def toNat (n : SlotNumber) : Nat := n.high.toNat * UInt32.size + n.low.toNat

/-- The slot number of a count; bits from the fortieth on are dropped. -/
def ofNat (k : Nat) : SlotNumber := ⟨.ofNat (k / UInt32.size), .ofNat k⟩

/-- Move forward by `k` slots; a carry out of the low word goes into the high byte. -/
def advance (n : SlotNumber) (k : UInt32) : SlotNumber :=
  { high := if n.low + k < k then n.high + 1 else n.high
    low := n.low + k }

/-- Move back by `k` slots; the low word borrows from the high byte. -/
def retreat (n : SlotNumber) (k : UInt32) : SlotNumber :=
  { high := if n.low < k then n.high - 1 else n.high
    low := n.low - k }

/-- How many slots `n` lies after `m`, negative if it lies before.  Only the low words take part,
so this is the true distance while the two are less than `2 ^ 31` slots apart. -/
def since (n m : SlotNumber) : Int := (n.low - m.low).toInt32.toInt

/-- The two words in hexadecimal, with a point between. -/
def text (n : SlotNumber) : String :=
  "0x" ++ String.ofList (Numeral.fixedWidth 16 2 n.high.toNat) ++ "."
    ++ String.ofList (Numeral.fixedWidth 16 8 n.low.toNat)

/-- A slot number has forty bits. -/
theorem toNat_lt (n : SlotNumber) : n.toNat < modulus := by
  have hhigh := n.high.toNat_lt
  have hlow := n.low.toNat_lt
  simp only [toNat, modulus, UInt8.size, UInt32.size]
  omega

/-- A number is cut to forty bits. -/
@[simp] theorem toNat_ofNat (k : Nat) : (ofNat k).toNat = k % modulus := by
  simp only [toNat, ofNat, modulus, UInt8.size, UInt32.size, UInt8.toNat_ofNat',
    UInt32.toNat_ofNat']
  omega

/-- A slot number is told by its count. -/
theorem toNat_inj {n m : SlotNumber} : n.toNat = m.toNat ↔ n = m := by
  refine ⟨fun h => ?_, fun h => h ▸ rfl⟩
  have hn := n.low.toNat_lt
  have hm := m.low.toNat_lt
  simp only [toNat, UInt32.size] at h
  have hhigh : n.high = m.high := UInt8.toNat_inj.1 (by omega)
  have hlow : n.low = m.low := UInt32.toNat_inj.1 (by omega)
  cases n
  cases m
  simp_all

/-- A slot number is made again from its count. -/
@[simp] theorem ofNat_toNat (n : SlotNumber) : ofNat n.toNat = n :=
  toNat_inj.1 (by rw [toNat_ofNat, Nat.mod_eq_of_lt n.toNat_lt])

/-- Moving forward is addition modulo `2 ^ 40`. -/
theorem toNat_advance (n : SlotNumber) (k : UInt32) :
    (n.advance k).toNat = (n.toNat + k.toNat) % modulus := by
  have hhigh := n.high.toNat_lt
  have hlow := n.low.toNat_lt
  have hk := k.toNat_lt
  simp only [advance, toNat, modulus, UInt8.size, UInt32.size, UInt32.lt_iff_toNat_lt,
    UInt32.toNat_add]
  split
  · rw [UInt8.toNat_add, UInt8.toNat_one]
    omega
  · omega

/-- Moving back is subtraction modulo `2 ^ 40`. -/
theorem toNat_retreat (n : SlotNumber) (k : UInt32) :
    (n.retreat k).toNat = (n.toNat + (modulus - k.toNat)) % modulus := by
  have hhigh := n.high.toNat_lt
  have hlow := n.low.toNat_lt
  have hk := k.toNat_lt
  simp only [retreat, toNat, modulus, UInt8.size, UInt32.size, UInt32.lt_iff_toNat_lt,
    UInt32.toNat_sub]
  split
  · rw [UInt8.toNat_sub, UInt8.toNat_one]
    omega
  · omega

end SlotNumber

end SlottedMesh
