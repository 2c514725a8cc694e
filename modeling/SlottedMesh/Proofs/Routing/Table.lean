import Mathlib.Data.List.Nodup
import SlottedMesh.Proofs.Identity.Indices
import SlottedMesh.Routing.Neighbor

/-!
# Tables of neighbours

A table has one entry for each address (`Distinct`), so that the entry of an address is the only one
that bears it (`Distinct.get?_of_mem`).  Changes of entries that leave their addresses and entries
of new addresses keep it so; `get?_modify` and `get?_insert_of_none` say what is found afterwards.
-/

namespace SlottedMesh.NeighborTable

/-- No two entries have the same address. -/
def Distinct (t : NeighborTable) : Prop := (t.entries.map (·.address)).Nodup

variable {t : NeighborTable} {a : Address} {n : Neighbor} {f : Neighbor → Neighbor}

/-- Without neighbours there are no two of one address. -/
theorem distinct_empty : empty.Distinct := List.nodup_nil

/-- The finite neighbours are those that have a way to the root. -/
@[simp] theorem mem_finite_iff : n ∈ t.finite ↔ n ∈ t.entries ∧ n.isFinite = true :=
  List.mem_filter

/-! ## Looking up -/

/-- Nothing is known of an address that no entry has. -/
theorem get?_eq_none_iff : t.get? a = none ↔ ∀ m ∈ t.entries, m.address ≠ a := by
  unfold get?
  rw [List.find?_eq_none]
  simp only [decide_eq_true_eq, ne_eq]

/-- An entry is found under its address. -/
theorem Distinct.get?_of_mem (h : t.Distinct) (hn : n ∈ t.entries) : t.get? n.address = some n :=
  find?_key_eq h hn

/-- Among the finite neighbours there are no two of one address either. -/
theorem Distinct.finite (h : t.Distinct) : (t.finite.map (·.address)).Nodup :=
  List.Nodup.sublist (List.filter_sublist.map _) h

/-! ## Changing an entry -/

/-- A change that leaves the address leaves the list of addresses. -/
theorem map_address_updateFirst (hf : ∀ m, (f m).address = m.address) (ns : List Neighbor) :
    (updateFirst a f ns).map (·.address) = ns.map (·.address) := by
  induction ns with
  | nil => rfl
  | cons m ms ih =>
    unfold updateFirst
    split
    · rw [List.map_cons, List.map_cons, hf]
    · rw [List.map_cons, List.map_cons, ih]

/-- A change that leaves the address keeps the addresses apart. -/
theorem Distinct.modify (h : t.Distinct) (hf : ∀ m, (f m).address = m.address) :
    (t.modify a f).Distinct := by
  unfold Distinct NeighborTable.modify
  rw [map_address_updateFirst hf]
  exact h

/-- What holds of all entries and is kept by a change holds of all entries after the change. -/
theorem forall_mem_modify {P : Neighbor → Prop} (h : ∀ m ∈ t.entries, P m)
    (hf : ∀ m, P m → P (f m)) : ∀ m ∈ (t.modify a f).entries, P m := by
  obtain ⟨ns⟩ := t
  show ∀ m ∈ updateFirst a f ns, P m
  induction ns with
  | nil => exact nofun
  | cons m ms ih =>
    obtain ⟨hm, hms⟩ := List.forall_mem_cons.1 h
    unfold updateFirst
    split
    · exact List.forall_mem_cons.2 ⟨hf m hm, hms⟩
    · exact List.forall_mem_cons.2 ⟨hm, ih hms⟩

/-- The entry of an address is changed, and those of other addresses are as they were. -/
theorem get?_modify (t : NeighborTable) (hf : ∀ m, (f m).address = m.address) (b : Address) :
    (t.modify a f).get? b = if b = a then (t.get? a).map f else t.get? b := by
  obtain ⟨ns⟩ := t
  show (updateFirst a f ns).find? (·.address = b) = if b = a then
    (ns.find? (·.address = a)).map f else ns.find? (·.address = b)
  induction ns with
  | nil => simp [updateFirst]
  | cons m ms ih =>
    rw [updateFirst]
    by_cases hm : m.address = a
    · rw [if_pos hm]
      by_cases hb : b = a
      · simp [hf, hm, hb]
      · have hne : a ≠ b := Ne.symm hb
        simp [hf, hm, hb, hne]
    · rw [if_neg hm, List.find?_cons, ih, List.find?_cons, List.find?_cons]
      by_cases hb : m.address = b
      · have hne : b ≠ a := fun heq => hm (hb.trans heq)
        simp [hb, hne]
      · simp [hm, hb]

/-! ## A new entry -/

/-- A new neighbour comes last. -/
theorem insert_of_none (h : t.get? n.address = none) : t.insert n = ⟨t.entries ++ [n]⟩ := by
  unfold insert
  rw [h]

/-- A new neighbour has an address of its own. -/
theorem Distinct.insert_of_none (h : t.Distinct) (hn : t.get? n.address = none) :
    (t.insert n).Distinct := by
  rw [NeighborTable.insert_of_none hn]
  unfold Distinct
  rw [List.map_append, List.map_singleton]
  refine List.Nodup.append h (List.nodup_singleton _) ?_
  rw [List.disjoint_singleton]
  rintro hmem
  obtain ⟨m, hm, haddress⟩ := List.mem_map.1 hmem
  exact get?_eq_none_iff.1 hn m hm haddress

/-- A new entry is found under its address. -/
theorem get?_insert_of_none (hn : t.get? n.address = none) (b : Address) :
    (t.insert n).get? b = if b = n.address then some n else t.get? b := by
  rw [NeighborTable.insert_of_none hn]
  show (t.entries ++ [n]).find? (·.address = b) = _
  rw [List.find?_append]
  by_cases hb : b = n.address
  · have hnone : t.entries.find? (·.address = n.address) = none := hn
    rw [hb, hnone]
    simp
  · have hne : n.address ≠ b := Ne.symm hb
    simp [hne, hb, NeighborTable.get?]

end SlottedMesh.NeighborTable
