import Mathlib.Data.Set.Card
import Mathlib.Data.UInt
import SlottedMesh.Schedule.Table

/-!
# Counting in tables

How the entries of a table add up.  `weigh w` is the sum of the weights of all values; putting or
taking a value changes it by that value's weight (`weigh_insert`, `weigh_erase`), which with weight
one is the number of entries (`size_eq_weigh`).  Seen from outside, the number of entries is the
number of keys that have a value (`ncard_support`).
-/

namespace SlottedMesh.Table

variable {α : Type}

/-- The sum of the weights of all values. -/
def weigh (w : α → Nat) (t : Table α) : Nat := (t.values.map w).sum

/-- The size is the weight of entries that each weigh one. -/
theorem size_eq_weigh (t : Table α) : t.size = t.weigh fun _ => 1 := by
  simp [size, weigh, values, Function.comp_def]

/-- The values are what is found under keys. -/
theorem mem_values_iff {t : Table α} {v : α} : v ∈ t.values ↔ ∃ k, t.get? k = some v := by
  simp only [values, List.mem_map, Prod.exists, get?_eq_some_iff]
  constructor
  · rintro ⟨k, _, hk, rfl⟩
    exact ⟨k, hk⟩
  · rintro ⟨k, hk⟩
    exact ⟨k, v, hk, rfl⟩

/-- The keys are those under which something is found. -/
theorem mem_keys_iff {t : Table α} {k : UInt16} : k ∈ t.keys ↔ (t.get? k).isSome := by
  simp only [keys, List.mem_map, Prod.exists, exists_and_right, exists_eq_right,
    Option.isSome_iff_exists, get?_eq_some_iff]

/-- No key occurs twice. -/
theorem nodup_keys (t : Table α) : t.keys.Nodup := by
  rw [keys, List.nodup_iff_pairwise_ne, List.pairwise_map]
  exact t.ascending.imp fun hlt => UInt16.ne_of_lt hlt

/-- The size is the number of keys under which something is found. -/
theorem ncard_support (t : Table α) : {k | (t.get? k).isSome}.ncard = t.size := by
  have hset : {k | (t.get? k).isSome} = (t.keys.toFinset : Set UInt16) := by
    ext k
    simp [mem_keys_iff]
  rw [hset, Set.ncard_coe_finset, List.toFinset_card_of_nodup t.nodup_keys]
  simp [keys, size]

/-! ## Putting and taking -/

/-- A key before all keys of a list has no value in it. -/
theorem find?_eq_none_of_lt {k : UInt16} {es : List (UInt16 × α)} (h : ∀ e ∈ es, k < e.1) :
    es.find? (·.1 = k) = none := by
  rw [List.find?_eq_none]
  intro e he heq
  have hlt := h e he
  rw [of_decide_eq_true heq] at hlt
  exact UInt16.lt_irrefl _ hlt

/-- An entry that is put in adds its weight and takes away that of the entry it replaces. -/
theorem weigh_insertEntry (w : α → Nat) (k : UInt16) (v : α) {es : List (UInt16 × α)}
    (hes : es.Pairwise (·.1 < ·.1)) :
    ((insertEntry k v es).map (w ·.2)).sum + ((es.find? (·.1 = k)).map (·.2)).elim 0 w =
      (es.map (w ·.2)).sum + w v := by
  induction es with
  | nil => simp [insertEntry]
  | cons x es ih =>
    obtain ⟨j, u⟩ := x
    obtain ⟨hj, hes⟩ := List.pairwise_cons.1 hes
    simp only [insertEntry]
    split
    · rename_i hlt
      have hnone : ((j, u) :: es).find? (·.1 = k) = none := by
        refine find?_eq_none_of_lt fun e he => ?_
        rcases List.mem_cons.1 he with rfl | he
        · exact hlt
        · exact UInt16.lt_trans hlt (hj e he)
      rw [hnone]
      simp
      omega
    · split
      · rename_i heq
        subst heq
        simp
        omega
      · rename_i hne
        have hjk : ¬j = k := fun h => hne h.symm
        have ih := ih hes
        rw [List.find?_cons_of_neg (by simpa using hjk)]
        simp only [List.map_cons, List.sum_cons]
        omega

/-- Putting a value adds its weight and takes that of the value it replaces. -/
theorem weigh_insert (w : α → Nat) (t : Table α) (k : UInt16) (v : α) :
    (t.insert k v).weigh w + (t.get? k).elim 0 w = t.weigh w + w v := by
  have h := weigh_insertEntry w k v t.ascending
  simpa only [weigh, values, insert, get?, List.map_map, Function.comp_def] using h

/-- Without the entry of a key its weight is missing. -/
theorem weigh_filter_ne (w : α → Nat) (k : UInt16) {es : List (UInt16 × α)}
    (hes : es.Pairwise (·.1 < ·.1)) :
    ((es.filter (·.1 ≠ k)).map (w ·.2)).sum + ((es.find? (·.1 = k)).map (·.2)).elim 0 w =
      (es.map (w ·.2)).sum := by
  induction es with
  | nil => rfl
  | cons x es ih =>
    obtain ⟨j, u⟩ := x
    obtain ⟨hj, hes⟩ := List.pairwise_cons.1 hes
    have ih := ih hes
    by_cases hjk : j = k
    · subst hjk
      rw [find?_eq_none_of_lt hj] at ih
      simp at ih ⊢
      omega
    · rw [List.find?_cons_of_neg (by simpa using hjk), List.filter_cons_of_pos (by simpa using hjk)]
      simp only [List.map_cons, List.sum_cons]
      omega

/-- Taking a value takes its weight. -/
theorem weigh_erase (w : α → Nat) (t : Table α) (k : UInt16) :
    (t.erase k).weigh w + (t.get? k).elim 0 w = t.weigh w := by
  have h := weigh_filter_ne w k t.ascending
  simpa only [weigh, values, erase, get?, List.map_map, Function.comp_def] using h

/-- A value under a new key makes the table larger by one. -/
theorem size_insert_of_none {t : Table α} {k : UInt16} (h : t.get? k = none) (v : α) :
    (t.insert k v).size = t.size + 1 := by
  have hweigh := weigh_insert (fun _ => 1) t k v
  rwa [h, ← size_eq_weigh, ← size_eq_weigh] at hweigh

/-- A value in the place of another leaves the size. -/
theorem size_insert_of_some {t : Table α} {k : UInt16} {u : α} (h : t.get? k = some u) (v : α) :
    (t.insert k v).size = t.size := by
  have hweigh := weigh_insert (fun _ => 1) t k v
  rw [h, ← size_eq_weigh, ← size_eq_weigh] at hweigh
  exact Nat.add_right_cancel hweigh

/-- Taking away an entry makes the table smaller by one. -/
theorem size_erase_of_some {t : Table α} {k : UInt16} {u : α} (h : t.get? k = some u) :
    (t.erase k).size + 1 = t.size := by
  have hweigh := weigh_erase (fun _ => 1) t k
  rwa [h, ← size_eq_weigh, ← size_eq_weigh] at hweigh

end SlottedMesh.Table
