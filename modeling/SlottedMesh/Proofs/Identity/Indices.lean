import Mathlib.Data.List.Nodup
import Mathlib.Data.Nat.ModEq
import SlottedMesh.Identity.Directory

/-!
# Indices tell nodes apart

A node goes by its address, its id and its index.  In the table of a deployment each of the three is
looked up by a search for the first entry that fits, and the place that is found is shuffled.  Here
is when nothing gets lost on the way from one to the other.

* `Directory.TellsApart` is what a table has to keep to, and `Directory.Spreads` what its shuffle
  has to.
* `Directory.indexOf?_addressOf?` says that a node has the same index by its address as by its id.
* `Directory.eq_of_index_eq` says that no two nodes have one index, as a shuffle whose multiplier
  and modulus have no common divisor sends different places to different indices.
-/

namespace SlottedMesh

/-! ## Shuffles -/

namespace Shuffle

variable {s : Shuffle} {i j : UInt16}

/-- A shuffled index is a remainder of a product that has room. -/
theorem toNat_apply (h : s.modulus ≠ 0) (i : UInt16) :
    (s.apply i).toNat = i.toNat * s.multiplier.toNat % s.modulus.toNat := by
  have hproduct : i.toNat * s.multiplier.toNat < 2 ^ 32 :=
    Nat.lt_of_lt_of_le (Nat.mul_lt_mul'' i.toNat_lt s.multiplier.toNat_lt) (by decide)
  have hresidue : i.toNat * s.multiplier.toNat % s.modulus.toNat < 2 ^ 16 :=
    Nat.lt_trans (Nat.mod_lt _ (UInt16.lt_iff_toNat_lt.1 (UInt16.pos_iff_ne_zero.2 h)))
      s.modulus.toNat_lt
  unfold apply
  rw [if_neg h, UInt32.toNat_toUInt16, UInt32.toNat_mod, UInt32.toNat_mul, UInt16.toNat_toUInt32,
    UInt16.toNat_toUInt32, UInt16.toNat_toUInt32, Nat.mod_eq_of_lt hproduct,
    Nat.mod_eq_of_lt hresidue]

/-- It is less than the modulus. -/
theorem apply_lt (h : s.modulus ≠ 0) (i : UInt16) : s.apply i < s.modulus := by
  rw [UInt16.lt_iff_toNat_lt, toNat_apply h]
  exact Nat.mod_lt _ (UInt16.lt_iff_toNat_lt.1 (UInt16.pos_iff_ne_zero.2 h))

/-- Below the modulus, no two indices are shuffled to one. -/
theorem eq_of_apply_eq (h : s.modulus ≠ 0)
    (hcoprime : s.multiplier.toNat.Coprime s.modulus.toNat) (hi : i < s.modulus)
    (hj : j < s.modulus) (heq : s.apply i = s.apply j) : i = j := by
  have hproducts : i.toNat * s.multiplier.toNat ≡ j.toNat * s.multiplier.toNat
      [MOD s.modulus.toNat] := by
    have hnat := congrArg UInt16.toNat heq
    rwa [toNat_apply h, toNat_apply h] at hnat
  have hmod : i.toNat ≡ j.toNat [MOD s.modulus.toNat] :=
    Nat.ModEq.cancel_right_of_coprime hcoprime.symm hproducts
  apply UInt16.toNat_inj.1
  exact hmod.eq_of_lt_of_lt (UInt16.lt_iff_toNat_lt.1 hi) (UInt16.lt_iff_toNat_lt.1 hj)

end Shuffle

/-! ## Tables -/

/-- A search for a key that no two elements share finds the element that has it. -/
theorem find?_key_eq {α β : Type} [DecidableEq β] {key : α → β} {xs : List α} {x : α}
    (h : (xs.map key).Nodup) (hx : x ∈ xs) : xs.find? (key · = key x) = some x := by
  cases hfind : xs.find? (key · = key x) with
  | none => simpa using List.find?_eq_none.1 hfind x hx
  | some y =>
    have hkey : key y = key x := by simpa using List.find?_some hfind
    rw [List.inj_on_of_nodup_map h (List.mem_of_find?_eq_some hfind) hx hkey]

/-- A search for the place of a key finds the place of the element that has it. -/
theorem findIdx?_key_eq {α β : Type} [DecidableEq β] {key : α → β} {xs : List α} {place : Nat}
    (h : (xs.map key).Nodup) (hplace : place < xs.length) :
    xs.findIdx? (key · = key xs[place]) = some place := by
  rw [List.findIdx?_eq_some_iff_getElem]
  refine ⟨hplace, decide_eq_true rfl, fun j hj hkey => ?_⟩
  have hlength : (xs.map key).length = xs.length := List.length_map key
  have hkeys : (xs.map key)[j] = (xs.map key)[place] := by
    rw [List.getElem_map, List.getElem_map]
    exact of_decide_eq_true hkey
  have heq : j = place := (h.getElem_inj_iff).1 hkeys
  omega

namespace Directory

/-- The nodes of a table can be told apart by their ids and by their short addresses, none of them
has the null address, and sixteen bits can count their places. -/
structure TellsApart (d : Directory) : Prop where
  /-- There is a table. -/
  nodes_ne_nil : d.nodes ≠ []
  /-- No two nodes have one id. -/
  nodup_ids : (d.nodes.map (·.1)).Nodup
  /-- No two nodes have one short address. -/
  nodup_shorts : (d.nodes.map (·.2.short)).Nodup
  /-- No node has the null address. -/
  address_ne_null : ∀ n ∈ d.nodes, n.2 ≠ .null
  /-- The places of the table fit into sixteen bits. -/
  length_le : d.nodes.length ≤ UInt16.size

/-- The shuffle, if there is one, has an index for each place, and loses none. -/
def Spreads (d : Directory) : Prop :=
  ∀ s ∈ d.shuffle, s.modulus ≠ 0 ∧ d.nodes.length ≤ s.modulus.toNat ∧
    s.multiplier.toNat.Coprime s.modulus.toNat

/-- How many indices there may be: as many as the modulus of the shuffle says, or as there are
places. -/
def indexCount (d : Directory) : Nat :=
  match d.shuffle with
  | some s => s.modulus.toNat
  | none => d.nodes.length

variable {d : Directory} {n m : UInt16 × Address} {place place' : Nat}

/-- The id of a node leads to its address, -/
theorem addressOf?_of_mem (h : d.TellsApart) (hn : n ∈ d.nodes) : d.addressOf? n.1 = some n.2 := by
  have hfind := find?_key_eq h.nodup_ids hn
  unfold addressOf?
  split
  · exact absurd ‹d.nodes = []› h.nodes_ne_nil
  · rw [hfind]
    rfl

/-- and its address to its id. -/
theorem idOf?_of_mem (h : d.TellsApart) (hn : n ∈ d.nodes) : d.idOf? n.2 = some n.1 := by
  have hfind := find?_key_eq h.nodup_shorts hn
  have hnull : ¬ n.2.isNull = true := by simpa [Address.isNull] using h.address_ne_null n hn
  unfold idOf?
  rw [if_neg hnull]
  split
  · exact absurd ‹d.nodes = []› h.nodes_ne_nil
  · rw [hfind]
    rfl

/-- The index of a node is its place, shuffled. -/
theorem indexOfId?_getElem (h : d.TellsApart) (hplace : place < d.nodes.length) :
    d.indexOfId? d.nodes[place].1 = some (d.shuffled (.ofNat place)) := by
  have hfind := findIdx?_key_eq h.nodup_ids hplace
  unfold indexOfId?
  split
  · exact absurd ‹d.nodes = []› h.nodes_ne_nil
  · rw [hfind, Option.bind_some, if_pos (Nat.lt_of_lt_of_le hplace h.length_le)]

/-- A node has the same index by its address as by its id. -/
theorem indexOf?_addressOf? (h : d.TellsApart) (hn : n ∈ d.nodes) :
    (d.addressOf? n.1).bind d.indexOf? = d.indexOfId? n.1 := by
  rw [addressOf?_of_mem h hn, Option.bind_some]
  unfold indexOf?
  rw [idOf?_of_mem h hn, Option.bind_some]

/-! ## Places and indices -/

/-- The place of a node in the directory has room in a word. -/
theorem toNat_ofNat_place (h : d.TellsApart) (hplace : place < d.nodes.length) :
    (UInt16.ofNat place).toNat = place := by
  rw [UInt16.toNat_ofNat']
  exact Nat.mod_eq_of_lt (Nat.lt_of_lt_of_le hplace h.length_le)

/-- The index of a node is less than the number of indices. -/
theorem shuffled_lt (h : d.TellsApart) (hs : d.Spreads) (hplace : place < d.nodes.length) :
    (d.shuffled (.ofNat place)).toNat < d.indexCount := by
  unfold shuffled indexCount
  cases hshuffle : d.shuffle with
  | none =>
    show (UInt16.ofNat place).toNat < _
    rwa [toNat_ofNat_place h hplace]
  | some s => exact UInt16.lt_iff_toNat_lt.1 (Shuffle.apply_lt (hs s hshuffle).1 _)

/-- No two places have one index. -/
theorem eq_of_shuffled_eq (h : d.TellsApart) (hs : d.Spreads) (hplace : place < d.nodes.length)
    (hplace' : place' < d.nodes.length)
    (heq : d.shuffled (.ofNat place) = d.shuffled (.ofNat place')) : place = place' := by
  have hword : UInt16.ofNat place = UInt16.ofNat place' := by
    unfold shuffled at heq
    cases hshuffle : d.shuffle with
    | none => rwa [hshuffle] at heq
    | some s =>
      rw [hshuffle] at heq
      obtain ⟨hmodulus, hlength, hcoprime⟩ := hs s hshuffle
      refine Shuffle.eq_of_apply_eq hmodulus hcoprime ?_ ?_ heq
      · rw [UInt16.lt_iff_toNat_lt, toNat_ofNat_place h hplace]
        omega
      · rw [UInt16.lt_iff_toNat_lt, toNat_ofNat_place h hplace']
        omega
  rw [← toNat_ofNat_place h hplace, hword, toNat_ofNat_place h hplace']

/-- Each node has an index, one of those that there may be. -/
theorem exists_index (h : d.TellsApart) (hs : d.Spreads) (hn : n ∈ d.nodes) :
    ∃ index, d.indexOfId? n.1 = some index ∧ index.toNat < d.indexCount := by
  obtain ⟨place, hplace, rfl⟩ := List.mem_iff_getElem.1 hn
  exact ⟨_, indexOfId?_getElem h hplace, shuffled_lt h hs hplace⟩

/-- No two nodes have one index. -/
theorem eq_of_index_eq (h : d.TellsApart) (hs : d.Spreads) (hn : n ∈ d.nodes) (hm : m ∈ d.nodes)
    (heq : d.indexOfId? n.1 = d.indexOfId? m.1) : n = m := by
  obtain ⟨place, hplace, rfl⟩ := List.mem_iff_getElem.1 hn
  obtain ⟨place', hplace', rfl⟩ := List.mem_iff_getElem.1 hm
  rw [indexOfId?_getElem h hplace, indexOfId?_getElem h hplace'] at heq
  have hplaces := eq_of_shuffled_eq h hs hplace hplace' (Option.some.inj heq)
  subst hplaces
  rfl

end Directory

end SlottedMesh
