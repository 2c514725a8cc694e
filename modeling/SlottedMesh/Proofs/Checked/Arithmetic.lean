import Mathlib.Data.UInt

/-!
# Arithmetic that can stop

The library computes with natural numbers, which have no largest one, and with words whose
operations wrap; its divisions by zero give zero.  A machine that computes the same in words stops
where a sum has no room, where a difference is negative, where a divisor is zero and where an array
has no such element.  `Checked` computations do stop there, with a `Fault` that says why.

For each operation there is a lemma that gives its result where it does not stop.  `foldlM_eq_pure`
and `iterate_eq_pure` do the same for loops: a loop does not stop if no step of it does, where what
the steps rely on is an invariant that may speak of what is left of the list.
-/

namespace SlottedMesh

/-- Why a computation stops. -/
inductive Fault where
  /-- A result is too large for its word. -/
  | overflow
  /-- A difference is negative. -/
  | underflow
  /-- A divisor is zero. -/
  | zeroDivisor
  /-- There is no such element. -/
  | outOfRange
deriving DecidableEq

/-- A computation that stops where a machine would. -/
abbrev Checked := Except Fault

namespace Checked

/-- The sum, in a word that holds the numbers below `limit`. -/
def add (limit x y : Nat) : Checked Nat := if x + y < limit then pure (x + y) else throw .overflow

/-- The product, in a word that holds the numbers below `limit`. -/
def mul (limit x y : Nat) : Checked Nat := if x * y < limit then pure (x * y) else throw .overflow

/-- The difference. -/
def sub (x y : Nat) : Checked Nat := if y ≤ x then pure (x - y) else throw .underflow

/-- The quotient. -/
def div (x y : Nat) : Checked Nat := if y = 0 then throw .zeroDivisor else pure (x / y)

/-- The remainder. -/
def rem (x y : Nat) : Checked Nat := if y = 0 then throw .zeroDivisor else pure (x % y)

/-- The element at a place. -/
def get {α : Type} (xs : Array α) (i : Nat) : Checked α :=
  match xs[i]? with
  | some x => pure x
  | none => throw .outOfRange

/-- The number, in a word of thirty-two bits with a sign. -/
def signed (x : Int) : Checked Int :=
  if Int32.minValue.toInt ≤ x ∧ x ≤ Int32.maxValue.toInt then pure x else throw .overflow

/-- Do something to a value so many times. -/
def iterate {α : Type} (f : α → Checked α) : Nat → α → Checked α
  | 0, x => pure x
  | n + 1, x => iterate f n x >>= f

variable {α β : Type} {limit x y : Nat}

/-- A sum that has room does not stop. -/
theorem add_eq (h : x + y < limit) : add limit x y = pure (x + y) := if_pos h

/-- A product that has room does not stop. -/
theorem mul_eq (h : x * y < limit) : mul limit x y = pure (x * y) := if_pos h

/-- What is no larger can be taken away. -/
theorem sub_eq (h : y ≤ x) : sub x y = pure (x - y) := if_pos h

/-- A division by anything but zero does not stop. -/
theorem div_eq (h : y ≠ 0) : div x y = pure (x / y) := if_neg h

/-- Nor does a remainder. -/
theorem rem_eq (h : y ≠ 0) : rem x y = pure (x % y) := if_neg h

/-- An element within bounds is there. -/
theorem get_eq {xs : Array α} {i : Nat} (h : i < xs.size) : get xs i = pure xs[i] := by
  unfold get
  rw [Array.getElem?_eq_getElem h]

/-- A difference that fits into a signed word does not stop. -/
theorem signed_eq {z : Int} (hmin : -2147483648 ≤ z) (hmax : z ≤ 2147483647) :
    signed z = pure z := if_pos ⟨hmin, hmax⟩

/-- A repetition does not stop if its steps do not, on values that an invariant holds of. -/
theorem iterate_eq_pure (f' : α → Checked α) (f : α → α) (I : α → Prop)
    (hstep : ∀ a, I a → f' a = pure (f a) ∧ I (f a)) {a : α} (ha : I a) (n : Nat) :
    iterate f' n a = pure (Nat.repeat f n a) ∧ I (Nat.repeat f n a) := by
  induction n with
  | zero => exact ⟨rfl, ha⟩
  | succ n ih =>
    obtain ⟨heq, hI⟩ := ih
    rw [iterate, heq, pure_bind]
    exact hstep _ hI

/-- A fold does not stop if its steps do not, where an invariant holds of the value and of what is
left of the list. -/
theorem foldlM_eq_pure (act' : β → α → Checked β) (act : β → α → β) (I : List α → β → Prop)
    (hstep : ∀ x xs b, I (x :: xs) b → act' b x = pure (act b x) ∧ I xs (act b x)) :
    ∀ (xs : List α) (b : β), I xs b →
      xs.foldlM act' b = pure (xs.foldl act b) ∧ I [] (xs.foldl act b)
  | [], b, hb => ⟨rfl, hb⟩
  | x :: xs, b, hb => by
    obtain ⟨heq, hnext⟩ := hstep x xs b hb
    rw [List.foldlM_cons, heq, pure_bind]
    exact foldlM_eq_pure act' act I hstep xs _ hnext

/-- A fold that counts in a word does not stop if no step adds more than `gain` and there is room
for what is left of the list. -/
theorem exists_foldlM_count (act : β × Nat → α → Checked (β × Nat)) (I : List α → β × Nat → Prop)
    (gain : Nat)
    (hstep : ∀ x xs b, I (x :: xs) b → b.2 + gain < UInt32.size →
      ∃ b', act b x = pure b' ∧ I xs b' ∧ b'.2 ≤ b.2 + gain) :
    ∀ (xs : List α) (b : β × Nat), I xs b → b.2 + xs.length * gain < UInt32.size →
      ∃ b', xs.foldlM act b = pure b' ∧ I [] b' ∧ b'.2 ≤ b.2 + xs.length * gain
  | [], b, hb, _ => ⟨b, rfl, hb, Nat.le_add_right _ _⟩
  | x :: xs, b, hb, hroom => by
    rw [List.length_cons, Nat.succ_mul] at hroom ⊢
    obtain ⟨b₁, hfirst, hb₁, hle₁⟩ := hstep x xs b hb (by omega)
    obtain ⟨b', hrest, hb', hle'⟩ :=
      exists_foldlM_count act I gain hstep xs b₁ hb₁ (by omega)
    rw [List.foldlM_cons, hfirst, pure_bind]
    exact ⟨b', hrest, hb', by omega⟩

end Checked

end SlottedMesh
