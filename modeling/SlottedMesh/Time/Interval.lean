import SlottedMesh.Time.Divisor

/-!
# Intervals of time and counts of slots

Lifetimes are set in units of a clock and kept in slots.  An `Interval` is a span of clock time to
the nanosecond; `wholeSlots` counts the slots that fit in it and `ofSlots` is the time that a number
of slots takes.
-/

namespace SlottedMesh

/-- A span of clock time: whole nanoseconds, fewer than `2 ^ 64` seconds of them. -/
structure Interval where
  /-- The length of the span. -/
  nanoseconds : Nat
  /-- A span has fewer than `2 ^ 64` seconds. -/
  bounded : nanoseconds < UInt64.size * 1_000_000_000
deriving DecidableEq

namespace Interval

/-- The span of a number of seconds. -/
def ofSeconds (s : UInt64) : Interval :=
  ⟨s.toNat * 1_000_000_000, Nat.mul_lt_mul_of_pos_right s.toNat_lt (by decide)⟩

/-- The span of a number of microseconds. -/
def ofMicroseconds (us : UInt64) : Interval :=
  ⟨us.toNat * 1000, by have := us.toNat_lt; unfold UInt64.size; omega⟩

/-- The span of `seconds` and `nanos` nanoseconds more, which may be seconds themselves.  There is
none if together they are too long for a span. -/
def ofParts? (seconds : UInt64) (nanos : UInt32) : Option Interval :=
  if h : seconds.toNat * 1_000_000_000 + nanos.toNat < UInt64.size * 1_000_000_000 then some ⟨_, h⟩
  else none

/-- Less than a second more is never too long. -/
theorem ofParts?_eq_some {seconds : UInt64} {nanos : UInt32} (h : nanos.toNat < 1_000_000_000) :
    ∃ bound,
      ofParts? seconds nanos = some ⟨seconds.toNat * 1_000_000_000 + nanos.toNat, bound⟩ := by
  have hseconds := seconds.toNat_lt
  have bound : seconds.toNat * 1_000_000_000 + nanos.toNat < UInt64.size * 1_000_000_000 := by
    unfold UInt64.size
    omega
  exact ⟨bound, dif_pos bound⟩

/-- The whole seconds in the span. -/
def seconds (t : Interval) : Nat := t.nanoseconds / 1_000_000_000

/-- What is left of the span after its whole seconds, in nanoseconds. -/
def subsecond (t : Interval) : Nat := t.nanoseconds % 1_000_000_000

/-- The whole microseconds in the span. -/
def microseconds (t : Interval) : Nat := t.nanoseconds / 1000

/-- How many whole slots of `slotLength` microseconds fit in the span; more than thirty-two bits can
count are counted as the most they can. -/
def wholeSlots (t : Interval) (slotLength : UInt32) : Except TimingError UInt32 :=
  if slotLength = 0 then .error .zeroSlotLength
  else .ok (.ofNat (min (t.microseconds / slotLength.toNat) (UInt32.size - 1)))

/-- The time that `slots` slots of `slotLength` microseconds take. -/
def ofSlots (slots slotLength : UInt32) : Interval :=
  ofMicroseconds (slots.toUInt64 * slotLength.toUInt64)

/-- The product of two thirty-two bit numbers has room in sixty-four bits. -/
theorem mul_lt_size (slots slotLength : UInt32) :
    slots.toNat * slotLength.toNat < UInt64.size :=
  Nat.lt_of_lt_of_le (Nat.mul_lt_mul'' slots.toNat_lt slotLength.toNat_lt) (by decide)

/-- Slots begin and end with whole microseconds. -/
theorem microseconds_ofSlots (slots slotLength : UInt32) :
    (ofSlots slots slotLength).microseconds = slots.toNat * slotLength.toNat := by
  show (slots.toUInt64 * slotLength.toUInt64).toNat * 1000 / 1000 = _
  rw [Nat.mul_div_cancel _ (by decide), UInt64.toNat_mul, UInt32.toNat_toUInt64,
    UInt32.toNat_toUInt64]
  exact Nat.mod_eq_of_lt (mul_lt_size slots slotLength)

end Interval

end SlottedMesh
