import SlottedMesh.Proofs.Checked.Arithmetic
import SlottedMesh.Time.Interval

/-!
# Intervals in slots and back

An interval is counted in the whole slots that fit in it, and so many slots take an interval of
time.  Counting loses the nanoseconds below a microsecond, then the microseconds below a slot, then
the slots that thirty-two bits cannot count.  What a comparison can tell is not lost: some slots are
no more than the count of an interval exactly if the time that they take is no longer than it.

* `le_iff_nanoseconds_le` says that comparing seconds first and then what is left of them is
  comparing nanoseconds.
* `checkedWholeSlots_eq` and `checkedOfSlots_eq` say that nothing stops either direction, in words
  of 128 bits for the count and of 64 bits for the time.
* `le_wholeSlots_iff` is the comparison, `wholeSlots_ofSlots` what follows from it for the count of
  the time that some slots take, and `wholeSlots_adjoint` the main statement.
-/

namespace SlottedMesh.Interval

open Checked

variable {s t : Interval} {slots fit slotLength : UInt32}

/-! ## Comparing intervals -/

/-- An interval is no longer than another if it has fewer whole seconds, or as many and no more
nanoseconds after them. -/
instance : LE Interval :=
  ⟨fun s t => s.seconds < t.seconds ∨ s.seconds = t.seconds ∧ s.subsecond ≤ t.subsecond⟩

instance (s t : Interval) : Decidable (s ≤ t) := inferInstanceAs (Decidable (_ ∨ _))

/-- Intervals are compared by their nanoseconds. -/
theorem le_iff_nanoseconds_le : s ≤ t ↔ s.nanoseconds ≤ t.nanoseconds := by
  show s.seconds < t.seconds ∨ s.seconds = t.seconds ∧ s.subsecond ≤ t.subsecond ↔ _
  unfold seconds subsecond
  omega

/-! ## The time that slots take -/

/-- The time that `slots` slots of `slotLength` microseconds take. -/
def checkedOfSlots (slots slotLength : UInt32) : Checked Interval := do
  let product ← mul UInt64.size slots.toNat slotLength.toNat
  return ofMicroseconds (.ofNat product)

/-- The microseconds of any number of slots have room in their word. -/
theorem checkedOfSlots_eq (slots slotLength : UInt32) :
    checkedOfSlots slots slotLength = pure (ofSlots slots slotLength) := by
  unfold checkedOfSlots
  rw [mul_eq (mul_lt_size slots slotLength), pure_bind]
  rfl

/-- So many slots last that many microseconds. -/
theorem nanoseconds_ofSlots (slots slotLength : UInt32) :
    (ofSlots slots slotLength).nanoseconds = slots.toNat * slotLength.toNat * 1000 := by
  rw [← microseconds_ofSlots]
  exact (Nat.div_mul_cancel (Nat.dvd_mul_left 1000 _)).symm

/-- Nanoseconds below a microsecond make no difference to whether slots fit. -/
theorem ofSlots_le_iff :
    ofSlots slots slotLength ≤ t ↔ slots.toNat * slotLength.toNat ≤ t.microseconds := by
  rw [le_iff_nanoseconds_le, nanoseconds_ofSlots]
  exact (Nat.le_div_iff_mul_le (by decide)).symm

/-! ## The slots that fit -/

/-- How many whole slots of `slotLength` microseconds fit in the interval, or as many as thirty-two
bits can count. -/
def checkedWholeSlots (t : Interval) (slotLength : UInt32) :
    Checked (Except TimingError UInt32) :=
  if slotLength = 0 then return .error .zeroSlotLength
  else do
    let whole ← mul (2 ^ 128) t.seconds 1_000_000
    let microseconds ← add (2 ^ 128) whole (t.subsecond / 1000)
    let slots ← div microseconds slotLength.toNat
    return .ok (if slots < UInt32.size then .ofNat slots else .ofNat (UInt32.size - 1))

/-- What thirty-two bits cannot count is replaced by the most that they can. -/
theorem ofNat_clipped (k : Nat) :
    (if k < UInt32.size then UInt32.ofNat k else .ofNat (UInt32.size - 1)) =
      .ofNat (min k (UInt32.size - 1)) := by
  split
  · rename_i hlt
    rw [Nat.min_eq_left (Nat.le_sub_one_of_lt hlt)]
  · rename_i hge
    rw [Nat.min_eq_right (Nat.le_trans (Nat.sub_le _ _) (Nat.not_lt.1 hge))]

/-- Counting the slots of an interval does not stop. -/
theorem checkedWholeSlots_eq (t : Interval) (slotLength : UInt32) :
    t.checkedWholeSlots slotLength = pure (t.wholeSlots slotLength) := by
  unfold checkedWholeSlots wholeSlots
  split
  · rfl
  · rename_i hlength
    have hne : slotLength.toNat ≠ 0 := fun h => hlength (UInt32.toNat_inj.1 h)
    have hmicroseconds : t.seconds * 1_000_000 + t.subsecond / 1000 = t.microseconds := by
      unfold seconds subsecond microseconds
      omega
    have hsum : t.seconds * 1_000_000 + t.subsecond / 1000 < 2 ^ 128 := by
      rw [hmicroseconds]
      exact Nat.lt_of_le_of_lt (Nat.div_le_self _ _) (Nat.lt_trans t.bounded (by decide))
    have hwhole : t.seconds * 1_000_000 < 2 ^ 128 :=
      Nat.lt_of_le_of_lt (Nat.le_add_right _ _) hsum
    rw [mul_eq hwhole, pure_bind, add_eq hsum, pure_bind, hmicroseconds, div_eq hne, pure_bind,
      ofNat_clipped]

/-- What a count is: the whole slots, if thirty-two bits can count them, and else the most that they
can. -/
theorem wholeSlots_eq_ok (h : t.wholeSlots slotLength = .ok fit) :
    0 < slotLength.toNat ∧
      fit.toNat = min (t.microseconds / slotLength.toNat) (UInt32.size - 1) := by
  unfold wholeSlots at h
  split at h
  · cases h
  · rename_i hlength
    cases h
    have hne : slotLength.toNat ≠ 0 := fun h => hlength (UInt32.toNat_inj.1 h)
    refine ⟨Nat.pos_of_ne_zero hne, UInt32.toNat_ofNat_of_lt' ?_⟩
    exact Nat.lt_of_le_of_lt (Nat.min_le_right _ _) (by decide)

/-- Some slots are no more than the count of an interval exactly if the time that they take is no
longer.  The greatest count cannot be told from more slots, but nor are there more to ask for. -/
theorem le_wholeSlots_iff (h : t.wholeSlots slotLength = .ok fit) :
    slots ≤ fit ↔ ofSlots slots slotLength ≤ t := by
  obtain ⟨hpos, hfit⟩ := wholeSlots_eq_ok h
  -- the clipping is no bound on slots that are counted in a word themselves
  have hslots : slots.toNat ≤ UInt32.size - 1 := Nat.le_sub_one_of_lt slots.toNat_lt
  rw [UInt32.le_iff_toNat_le, hfit, ofSlots_le_iff, Nat.le_min, Nat.le_div_iff_mul_le hpos]
  exact and_iff_left hslots

/-- Slots of any length but zero can be counted. -/
theorem exists_wholeSlots (hlength : slotLength ≠ 0) (t : Interval) :
    ∃ fit, t.wholeSlots slotLength = .ok fit :=
  ⟨_, if_neg hlength⟩

/-- The time that some slots take has these slots as its count: they fit, and if more did, more
would take no longer. -/
theorem wholeSlots_ofSlots (hlength : slotLength ≠ 0) (slots : UInt32) :
    (ofSlots slots slotLength).wholeSlots slotLength = .ok slots := by
  obtain ⟨fit, h⟩ := exists_wholeSlots hlength (ofSlots slots slotLength)
  obtain ⟨hpos, -⟩ := wholeSlots_eq_ok h
  have hle : slots ≤ fit := (le_wholeSlots_iff h).2 (le_iff_nanoseconds_le.2 (Nat.le_refl _))
  -- what fits takes no longer than the slots do, and times are compared by their factors
  have hge : fit ≤ slots := by
    have htime := ofSlots_le_iff.1 ((le_wholeSlots_iff h).1 (UInt32.le_refl fit))
    rw [microseconds_ofSlots] at htime
    exact UInt32.le_iff_toNat_le.2 (Nat.le_of_mul_le_mul_right htime hpos)
  rw [h, UInt32.le_antisymm hge hle]

/-- **Slots against time.**  With slots of any length but zero, every interval has a count, and some
slots are no more than it exactly if the time that they take is no longer than the interval, also
where the count is the greatest that there is.  So the time that some slots take has these slots as
its count.  Neither direction leaves its word; the product of slots and their length in microseconds
has room in sixty-four bits. -/
theorem wholeSlots_adjoint (hlength : slotLength ≠ 0) :
    (∀ t : Interval, ∃ fit, t.wholeSlots slotLength = .ok fit ∧
      t.checkedWholeSlots slotLength = pure (.ok fit) ∧
      ∀ slots, slots ≤ fit ↔ ofSlots slots slotLength ≤ t) ∧
    ∀ slots, (ofSlots slots slotLength).wholeSlots slotLength = .ok slots ∧
      checkedOfSlots slots slotLength = pure (ofSlots slots slotLength) := by
  refine ⟨fun t => ?_, fun slots => ⟨?_, ?_⟩⟩
  · obtain ⟨fit, h⟩ := exists_wholeSlots hlength t
    refine ⟨fit, h, ?_, fun slots => le_wholeSlots_iff h⟩
    rw [checkedWholeSlots_eq, h]
  · exact wholeSlots_ofSlots hlength slots
  · exact checkedOfSlots_eq slots slotLength

/-- A nanosecond short of a slot, and the longest interval there is. -/
theorem wholeSlots_adjoint_atLimits :
    (15000 : UInt32) ≠ 0 ∧
      (∃ fit, wholeSlots ⟨14_999_999, by decide⟩ 15000 = .ok fit ∧ ¬1 ≤ fit) ∧
      (∃ fit, wholeSlots ⟨UInt64.size * 1_000_000_000 - 1, by decide⟩ 15000 = .ok fit ∧
        4294967295 ≤ fit) ∧
      (ofSlots 4294967295 15000).wholeSlots 15000 = .ok 4294967295 := by
  have hlength : (15000 : UInt32) ≠ 0 := by decide
  obtain ⟨hcount, hback⟩ := wholeSlots_adjoint hlength
  refine ⟨hlength, ?_, ?_, (hback _).1⟩
  · obtain ⟨fit, h, -, hiff⟩ := hcount ⟨14_999_999, by decide⟩
    exact ⟨fit, h, fun hle => absurd ((hiff 1).1 hle) (by decide)⟩
  · obtain ⟨fit, h, -, hiff⟩ := hcount ⟨UInt64.size * 1_000_000_000 - 1, by decide⟩
    exact ⟨fit, h, (hiff _).2 (by decide)⟩

end SlottedMesh.Interval
