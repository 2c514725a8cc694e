/-!
# The earliest least element

Parents are chosen by scanning a list for the least value of a key, where the earlier of two equal
ones keeps its place.  The choice is an element of the list (`least?_mem`).
-/

namespace SlottedMesh

variable {α : Type}

/-- The element with the least key among `x` and `xs`; `x` comes first and the earlier one wins. -/
def leastFrom (key : α → Nat) (x : α) (xs : List α) : α :=
  xs.foldl (fun best y => if key y < key best then y else best) x

/-- The earliest element with the least key. -/
def least? (key : α → Nat) : List α → Option α
  | [] => none
  | x :: xs => some (leastFrom key x xs)

/-- The least element is one of them. -/
theorem leastFrom_mem (key : α → Nat) (x : α) (xs : List α) : leastFrom key x xs ∈ x :: xs := by
  induction xs generalizing x with
  | nil => exact List.mem_singleton.2 rfl
  | cons y ys ih =>
    have h := ih (if key y < key x then y else x)
    simp only [leastFrom, List.foldl_cons] at h ⊢
    rcases List.mem_cons.1 h with h | h
    · rw [h]
      split <;> simp
    · exact List.mem_cons_of_mem _ (List.mem_cons_of_mem _ h)

/-- Nothing has a smaller key. -/
theorem key_leastFrom_le (key : α → Nat) (x : α) (xs : List α) :
    ∀ y ∈ x :: xs, key (leastFrom key x xs) ≤ key y := by
  induction xs generalizing x with
  | nil => simp [leastFrom]
  | cons z zs ih =>
    intro y hy
    have h := ih (if key z < key x then z else x)
    have hstart : key (if key z < key x then z else x) ≤ key x ∧
        key (if key z < key x then z else x) ≤ key z := by split <;> omega
    simp only [leastFrom, List.foldl_cons] at h ⊢
    have hhead := h _ List.mem_cons_self
    rcases List.mem_cons.1 hy with rfl | hy
    · exact Nat.le_trans hhead hstart.1
    · rcases List.mem_cons.1 hy with rfl | hy
      · exact Nat.le_trans hhead hstart.2
      · exact h y (List.mem_cons_of_mem _ hy)

/-- What is chosen is in the list. -/
theorem least?_mem {key : α → Nat} {xs : List α} {x : α} (h : least? key xs = some x) : x ∈ xs := by
  cases xs with
  | nil => simp [least?] at h
  | cons y ys =>
    simp only [least?, Option.some.injEq] at h
    exact h ▸ leastFrom_mem key y ys

end SlottedMesh
