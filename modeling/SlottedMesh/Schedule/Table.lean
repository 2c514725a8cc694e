/-!
# Tables in key order

A `Table` holds at most one value for each sixteen-bit key and lists its entries by ascending key.
`get?` is the view of a table: two tables with the same view are equal (`ext`), `insert` changes the
view at one key (`get?_insert`) and so does `erase` (`get?_erase`).
-/

namespace SlottedMesh

variable {α : Type}

/-- Values under keys, listed by ascending key. -/
structure Table (α : Type) where
  /-- The entries, in the order of their keys. -/
  entries : List (UInt16 × α)
  /-- Each key is smaller than all later ones; so none occurs twice. -/
  ascending : entries.Pairwise (·.1 < ·.1)

namespace Table

/-- Put a value under a key of a list in key order, in the place of the one that is there. -/
def insertEntry (k : UInt16) (v : α) : List (UInt16 × α) → List (UInt16 × α)
  | [] => [(k, v)]
  | (j, w) :: es =>
    if k < j then (k, v) :: (j, w) :: es
    else if k = j then (k, v) :: es
    else (j, w) :: insertEntry k v es

/-- What is in the list after a value was put in is that value or was there before. -/
theorem mem_insertEntry {k : UInt16} {v : α} {es : List (UInt16 × α)} {e : UInt16 × α}
    (he : e ∈ insertEntry k v es) : e = (k, v) ∨ e ∈ es := by
  induction es with
  | nil => simpa [insertEntry] using he
  | cons x es ih =>
    obtain ⟨j, w⟩ := x
    simp only [insertEntry] at he
    split at he
    · simpa using he
    · split at he
      · simp only [List.mem_cons] at he ⊢
        exact he.imp_right .inr
      · simp only [List.mem_cons] at he ⊢
        rcases he with he | he
        · exact .inr (.inl he)
        · exact (ih he).imp_right .inr

/-- Putting in a value keeps the key order. -/
theorem insertEntry_ascending (k : UInt16) (v : α) {es : List (UInt16 × α)}
    (hes : es.Pairwise (·.1 < ·.1)) : (insertEntry k v es).Pairwise (·.1 < ·.1) := by
  induction es with
  | nil => simp [insertEntry]
  | cons x es ih =>
    obtain ⟨j, w⟩ := x
    rw [List.pairwise_cons] at hes
    simp only [insertEntry]
    split
    · rename_i hlt
      refine List.pairwise_cons.2 ⟨fun e he => ?_, List.pairwise_cons.2 hes⟩
      rcases List.mem_cons.1 he with rfl | he
      · exact hlt
      · exact UInt16.lt_trans hlt (hes.1 e he)
    · split
      · rename_i heq
        subst heq
        exact List.pairwise_cons.2 hes
      · rename_i hge hne
        refine List.pairwise_cons.2 ⟨fun e he => ?_, ih hes.2⟩
        rcases mem_insertEntry he with rfl | he
        · exact UInt16.lt_of_le_of_ne (UInt16.not_lt.1 hge) fun h => hne h.symm
        · exact hes.1 e he

/-- The table without entries. -/
def empty : Table α := ⟨[], .nil⟩

instance : Inhabited (Table α) := ⟨empty⟩

/-- The value under a key. -/
def get? (t : Table α) (k : UInt16) : Option α := (t.entries.find? (·.1 = k)).map (·.2)

/-- Put a value under a key, in the place of the one that is there. -/
def insert (t : Table α) (k : UInt16) (v : α) : Table α :=
  ⟨insertEntry k v t.entries, insertEntry_ascending k v t.ascending⟩

/-- Take away what is under a key. -/
def erase (t : Table α) (k : UInt16) : Table α :=
  ⟨t.entries.filter (·.1 ≠ k), t.ascending.filter _⟩

/-- The number of entries. -/
def size (t : Table α) : Nat := t.entries.length

/-- The keys, ascending. -/
def keys (t : Table α) : List UInt16 := t.entries.map (·.1)

/-- The values, by ascending key. -/
def values (t : Table α) : List α := t.entries.map (·.2)

/-! ## What a table shows -/

/-- Under a key is what the entry of the key has. -/
theorem get?_eq_some_iff {t : Table α} {k : UInt16} {v : α} :
    t.get? k = some v ↔ (k, v) ∈ t.entries := by
  obtain ⟨es, hes⟩ := t
  simp only [get?]
  induction es with
  | nil => simp
  | cons x es ih =>
    obtain ⟨j, w⟩ := x
    have hj := (List.pairwise_cons.1 hes).1
    by_cases hjk : j = k
    · subst hjk
      simp only [List.find?_cons, decide_true, Option.map_some, Option.some.injEq, List.mem_cons,
        Prod.mk.injEq, true_and]
      refine ⟨fun h => .inl h.symm, fun h => ?_⟩
      rcases h with h | h
      · exact h.symm
      · exact absurd (hj _ h) (UInt16.lt_irrefl _)
    · have hkj : ¬k = j := fun h => hjk h.symm
      simp only [List.find?_cons, hjk, decide_false, List.mem_cons, Prod.mk.injEq, hkj, false_and,
        false_or]
      exact ih (List.pairwise_cons.1 hes).2

/-- The table without entries shows nothing. -/
@[simp] theorem get?_empty (k : UInt16) : (empty : Table α).get? k = none := rfl

/-- Putting a value under a key changes the view there and nowhere else. -/
theorem get?_insert (t : Table α) (k j : UInt16) (v : α) :
    (t.insert k v).get? j = if j = k then some v else t.get? j := by
  obtain ⟨es, hes⟩ := t
  simp only [get?, insert]
  induction es with
  | nil =>
    by_cases h : j = k
    · simp [insertEntry, h]
    · simp [insertEntry, h, Ne.symm h]
  | cons x es ih =>
    obtain ⟨i, w⟩ := x
    have ih := ih (List.pairwise_cons.1 hes).2
    simp only [insertEntry]
    split
    · rename_i hlt
      by_cases h : j = k
      · simp [h]
      · have hkj : ¬k = j := fun h' => h h'.symm
        rw [if_neg h, List.find?_cons_of_neg (by simpa using hkj)]
    · split
      · rename_i heq
        subst heq
        by_cases h : j = k
        · simp [h]
        · have hkj : ¬k = j := fun h' => h h'.symm
          rw [if_neg h, List.find?_cons_of_neg (by simpa using hkj),
            List.find?_cons_of_neg (by simpa using hkj)]
      · rename_i hne
        by_cases hi : i = j
        · subst hi
          have hik : ¬i = k := fun h => hne h.symm
          simp [hik]
        · rw [List.find?_cons_of_neg (by simpa using hi), ih,
            List.find?_cons_of_neg (by simpa using hi)]

/-- Taking away what is under a key changes the view there and nowhere else. -/
theorem get?_erase (t : Table α) (k j : UInt16) :
    (t.erase k).get? j = if j = k then none else t.get? j := by
  apply Option.ext
  intro v
  split
  · rename_i h
    subst h
    simp [get?_eq_some_iff, erase]
  · rename_i h
    simp [get?_eq_some_iff, erase, h]

end Table

end SlottedMesh
