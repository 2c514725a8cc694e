import Mathlib.Algebra.Group.Nat.Defs
import Mathlib.Data.List.Forall2
import Mathlib.Data.Nat.Digits.Defs
import SlottedMesh.Text.Numeral

/-!
# Reading what was written

A number that is written in a fixed width reads back, in any base up to sixteen
(`read?_fixedWidth`).  The digits before the last are the numeral of the quotient, so the induction
is on the width.

`IsHexNumeral` says which texts are hexadecimal numerals and of which numbers, and
`read?_sixteen_eq_some_iff` that these are what is read.
-/

namespace SlottedMesh.Numeral

/-! ## What was written reads back -/

/-- A written digit has the value it was written for. -/
theorem digit?_digitChar {base d : Nat} (hbase : base ≤ 16) (hd : d < base) :
    digit? base (digitChar d) = some d := by
  have small : ∀ d : Fin 16, value? (digitChar d) = some d.val := by decide
  have hvalue : value? (digitChar d) = some d := small ⟨d, by omega⟩
  simp [digit?, hvalue, Option.filter, hd]

/-- Digits are read one after another. -/
theorem readFrom?_append (base acc : Nat) (xs ys : List Char) :
    readFrom? base acc (xs ++ ys) = (readFrom? base acc xs).bind (readFrom? base · ys) := by
  induction xs generalizing acc with
  | nil => rfl
  | cons x xs ih =>
    simp only [List.cons_append, readFrom?, Option.bind_assoc]
    congr 1
    funext d
    exact ih _

/-- The digits of a number, cut to a width, are read as what the width leaves of it. -/
theorem readFrom?_fixedWidth {base : Nat} (hpos : 0 < base) (hbase : base ≤ 16)
    (width n acc : Nat) :
    readFrom? base acc (fixedWidth base width n) =
      some (acc * base ^ width + n % base ^ width) := by
  induction width generalizing n with
  | zero => simp [fixedWidth, readFrom?, Nat.mod_one]
  | succ width ih =>
    have hd := digit?_digitChar hbase (Nat.mod_lt n hpos)
    simp only [fixedWidth, readFrom?_append, ih, Option.bind_some, readFrom?, hd, Option.some.injEq]
    rw [Nat.pow_succ, Nat.mul_comm (base ^ width) base, Nat.mod_mul, Nat.add_mul, Nat.mul_assoc,
      Nat.mul_comm (base ^ width) base, Nat.mul_comm (n / base % base ^ width) base]
    omega

/-- What is written in `width` digits reads back, if the number has no more digits than that. -/
theorem read?_fixedWidth {base width n : Nat} (hpos : 0 < base) (hbase : base ≤ 16)
    (hwidth : 0 < width) (hn : n < base ^ width) :
    read? base (fixedWidth base width n) = some n := by
  have hread := readFrom?_fixedWidth hpos hbase width n 0
  match hcs : fixedWidth base width n with
  | [] =>
    have := length_fixedWidth base width n
    rw [hcs] at this
    simp at this
    omega
  | c :: cs =>
    rw [hcs] at hread
    simpa [read?, Nat.mod_eq_of_lt hn] using hread

/-! ## Hexadecimal numerals -/

/-- The hexadecimal digits in their order, with letters in lower case. -/
def lowerDigits : List Char :=
  ['0', '1', '2', '3', '4', '5', '6', '7', '8', '9', 'a', 'b', 'c', 'd', 'e', 'f']

/-- The same with letters in upper case. -/
def upperDigits : List Char :=
  ['0', '1', '2', '3', '4', '5', '6', '7', '8', '9', 'A', 'B', 'C', 'D', 'E', 'F']

/-- `c` is the hexadecimal digit of value `d`, in either case. -/
def IsHexDigit (c : Char) (d : Nat) : Prop := lowerDigits[d]? = some c ∨ upperDigits[d]? = some c

instance (c : Char) (d : Nat) : Decidable (IsHexDigit c d) := inferInstanceAs (Decidable (_ ∨ _))

/-- The text is a hexadecimal numeral of `n`: it has one digit or more, the most significant first,
and nothing else. -/
def IsHexNumeral (cs : List Char) (n : Nat) : Prop :=
  cs ≠ [] ∧ ∃ ds, List.Forall₂ IsHexDigit cs ds ∧ Nat.ofDigits 16 ds.reverse = n

/-- A hexadecimal digit is read as its value. -/
theorem digit?_of_isHexDigit {c : Char} {d : Nat} (h : IsHexDigit c d) :
    digit? 16 c = some d := by
  have hall : ∀ d : Fin 16, digit? 16 lowerDigits[d] = some d.val ∧
      digit? 16 upperDigits[d] = some d.val := by decide
  rcases h with h | h
  · obtain ⟨hd, rfl⟩ := List.getElem?_eq_some_iff.1 h
    exact (hall ⟨d, hd⟩).1
  · obtain ⟨hd, rfl⟩ := List.getElem?_eq_some_iff.1 h
    exact (hall ⟨d, hd⟩).2

/-- Only characters among the first 128 have a value. -/
theorem toNat_lt_of_value? {c : Char} {v : Nat} (h : value? c = some v) : c.toNat < 128 := by
  unfold value? at h
  split at h
  · rename_i hc
    exact Nat.lt_of_le_of_lt (Char.le_def.1 hc.2) (by decide)
  · split at h
    · rename_i hc
      exact Nat.lt_of_le_of_lt (Char.le_def.1 hc.2) (by decide)
    · split at h
      · rename_i hc
        exact Nat.lt_of_le_of_lt (Char.le_def.1 hc.2) (by decide)
      · cases h

/-- There are no digits but those of the two lists, as can be seen from the first 128 characters. -/
theorem isHexDigit_of_digit? {c : Char} {d : Nat} (h : digit? 16 c = some d) : IsHexDigit c d := by
  have hall : ∀ k : Fin 128, ∀ d ∈ digit? 16 (Char.ofNat k), IsHexDigit (Char.ofNat k) d := by
    decide +kernel
  obtain ⟨hvalue, -⟩ := Option.filter_eq_some_iff.1 h
  have hc := hall ⟨c.toNat, toNat_lt_of_value? hvalue⟩
  rw [Char.ofNat_toNat] at hc
  exact hc d h

/-- What is read as a digit is a hexadecimal digit, small or capital. -/
theorem digit?_sixteen_eq_some_iff {c : Char} {d : Nat} :
    digit? 16 c = some d ↔ IsHexDigit c d :=
  ⟨isHexDigit_of_digit?, digit?_of_isHexDigit⟩

/-- To go on reading is to read further digits behind those that were read. -/
theorem readFrom?_sixteen_eq_some_iff {acc n : Nat} {cs : List Char} :
    readFrom? 16 acc cs = some n ↔
      ∃ ds, List.Forall₂ IsHexDigit cs ds ∧
        acc * 16 ^ cs.length + Nat.ofDigits 16 ds.reverse = n := by
  induction cs generalizing acc with
  | nil => simp [readFrom?]
  | cons c cs ih =>
    simp only [readFrom?, Option.bind_eq_some_iff, digit?_sixteen_eq_some_iff, ih,
      List.forall₂_cons_left_iff]
    constructor
    · rintro ⟨d, hd, ds, hds, rfl⟩
      refine ⟨d :: ds, ⟨d, ds, hd, hds, rfl⟩, ?_⟩
      rw [Nat.ofDigits_reverse_cons, hds.length_eq, List.length_cons, hds.length_eq]
      ring
    · rintro ⟨_, ⟨d, ds, hd, hds, rfl⟩, rfl⟩
      refine ⟨d, hd, ds, hds, ?_⟩
      rw [Nat.ofDigits_reverse_cons, hds.length_eq, List.length_cons, hds.length_eq]
      ring

/-- What is read in base sixteen are the hexadecimal numerals. -/
theorem read?_sixteen_eq_some_iff {cs : List Char} {n : Nat} :
    read? 16 cs = some n ↔ IsHexNumeral cs n := by
  cases cs with
  | nil => simp [read?, IsHexNumeral]
  | cons c cs => simp [read?, IsHexNumeral, readFrom?_sixteen_eq_some_iff]

/-- What is written in base sixteen has digits in lower case only. -/
theorem mem_lowerDigits_of_mem_fixedWidth {width n : Nat} {c : Char}
    (hc : c ∈ fixedWidth 16 width n) : c ∈ lowerDigits := by
  have hall : ∀ d : Fin 16, digitChar d ∈ lowerDigits := by decide
  induction width generalizing n with
  | zero => cases hc
  | succ width ih =>
    rcases List.mem_append.1 hc with hc | hc
    · exact ih hc
    · rw [List.mem_singleton.1 hc]
      exact hall ⟨n % 16, Nat.mod_lt n (by decide)⟩

end SlottedMesh.Numeral
