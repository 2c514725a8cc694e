import Mathlib.Data.List.Induction
import Mathlib.Order.Bounds.Basic
import SlottedMesh.Proofs.Routing.Choice

/-!
# Hysteresis

Under delivery ratios each neighbour in turn is compared with the best so far, and a comparison with
the present parent is in favour of the parent while the two ranks are close.  Such comparisons are
not transitive: what is compared with what depends on the order of the table.  The outcome does not.

* `prefers_iff_of_left`, `prefers_iff_of_right` and `prefers_iff_of_ne` say what one comparison
  comes to, by where the present parent is.
* `Settles` says what a choice among some neighbours is to be: the present parent, while its rank is
  less than the hysteresis above the least one, and otherwise a neighbour of the least rank.
* `Settles.append`: one more comparison makes it so for one more neighbour; `exists_settles` is the
  whole choice.
* `reselect_with_hysteresis` is the main statement.
-/

namespace SlottedMesh

namespace DeliveryRatio

variable {o : DeliveryRatio} {present : Option Address} {ns : List Neighbor} {p q n best : Neighbor}
  {m : Nat}

/-! ## One comparison -/

/-- The present parent, coming first, stays unless it is the hysteresis above the other or more. -/
theorem prefers_iff_of_left (hp : present = some p.address) (hne : p.address ≠ q.address) :
    o.prefers present p q = true ↔
      (o.rankThrough p).toNat < (o.rankThrough q).toNat + o.hysteresis.toNat := by
  subst hp
  simp only [prefers, close, Option.some.injEq, hne, and_true, and_false, if_false,
    decide_eq_true_eq, UInt16.lt_iff_toNat_lt]
  split
  · rename_i hclose
    exact iff_of_true rfl hclose.1
  · rw [decide_eq_true_eq]
    omega

/-- Coming second, it is chosen unless it is the hysteresis above the other or more; without
hysteresis it is chosen in a tie. -/
theorem prefers_iff_of_right (hq : present = some q.address) (hne : p.address ≠ q.address) :
    o.prefers present p q = true ↔
      (o.rankThrough p).toNat < (o.rankThrough q).toNat ∧
        (o.rankThrough p).toNat + o.hysteresis.toNat ≤ (o.rankThrough q).toNat := by
  subst hq
  simp only [prefers, close, Option.some.injEq, hne.symm, and_true, and_false, if_false,
    decide_eq_true_eq, UInt16.lt_iff_toNat_lt]
  split
  · rename_i hclose
    exact iff_of_false Bool.false_ne_true (by omega)
  · rw [decide_eq_true_eq]
    omega

/-- Of two others the one of the lower rank is preferred, and the second if the ranks are equal. -/
theorem prefers_iff_of_ne (hp : present ≠ some p.address) (hq : present ≠ some q.address) :
    o.prefers present p q = true ↔ (o.rankThrough p).toNat < (o.rankThrough q).toNat := by
  simp only [prefers, hp, hq, and_false, if_false, decide_eq_true_eq, UInt16.lt_iff_toNat_lt]

/-! ## All comparisons -/

/-- The ranks over some neighbours. -/
def ranks (o : DeliveryRatio) (ns : List Neighbor) : Set Nat :=
  {k | ∃ n ∈ ns, (o.rankThrough n).toNat = k}

/-- What a choice among some neighbours is to be, where `m` is the least rank over them. -/
structure Settles (o : DeliveryRatio) (present : Option Address) (ns : List Neighbor) (m : Nat)
    (best : Neighbor) : Prop where
  /-- One of them is chosen. -/
  mem : best ∈ ns
  /-- The present parent is, while its rank is less than the hysteresis above the least. -/
  eq_of_lt {p : Neighbor} : p ∈ ns → present = some p.address →
    (o.rankThrough p).toNat < m + o.hysteresis.toNat → best = p
  /-- Otherwise the rank is the least. -/
  rank_eq : (∀ p ∈ ns, present = some p.address →
    m + o.hysteresis.toNat ≤ (o.rankThrough p).toNat) → (o.rankThrough best).toNat = m

/-- If the present parent was not chosen, the rank is the least. -/
theorem Settles.rank_eq_of_ne (h : o.Settles present ns m best)
    (hne : present ≠ some best.address) : (o.rankThrough best).toNat = m := by
  refine h.rank_eq fun p hp hpresent => ?_
  by_contra hnear
  rw [h.eq_of_lt hp hpresent (Nat.not_le.1 hnear)] at hne
  exact hne hpresent

/-- The rank is the least, or less than the hysteresis above it. -/
theorem Settles.rank_eq_or_lt (h : o.Settles present ns m best) :
    (o.rankThrough best).toNat = m ∨ (o.rankThrough best).toNat < m + o.hysteresis.toNat := by
  by_cases hfar : ∀ p ∈ ns, present = some p.address →
      m + o.hysteresis.toNat ≤ (o.rankThrough p).toNat
  · exact .inl (h.rank_eq hfar)
  · push Not at hfar
    obtain ⟨p, hp, hpresent, hnear⟩ := hfar
    rw [h.eq_of_lt hp hpresent hnear]
    exact .inr hnear

section Append

variable (h : o.Settles present ns m best) (hdistinct : ∀ p ∈ ns, p.address ≠ n.address)

include h hdistinct

/-- The choice is settled for the present parent as well, if it comes last. -/
theorem Settles.append_present (hn : present = some n.address) :
    o.Settles present (ns ++ [n]) (min (o.rankThrough n).toNat m)
      (if o.prefers present best n then best else n) := by
  have hold {p : Neighbor} (hp : p ∈ ns ++ [n]) (hpresent : present = some p.address) : p = n := by
    rcases List.mem_append.1 hp with hp | hp
    · rw [hn] at hpresent
      exact absurd (Option.some.inj hpresent).symm (hdistinct p hp)
    · exact List.mem_singleton.1 hp
  have hlast : n ∈ ns ++ [n] := List.mem_append_right _ (List.mem_singleton_self n)
  have hbest := hdistinct best h.mem
  -- the present parent is none of the others, and so `best` has the least rank of these
  have hleast : (o.rankThrough best).toNat = m := by
    refine h.rank_eq_of_ne fun hpresent => hbest ?_
    rw [hold (List.mem_append_left _ h.mem) hpresent]
  have hiff := prefers_iff_of_right (o := o) hn hbest
  split
  · rename_i hprefers
    rw [hiff] at hprefers
    refine ⟨List.mem_append_left _ h.mem, fun {p} hp hpresent hnear => ?_, fun _ => by omega⟩
    rw [hold hp hpresent] at hnear
    omega
  · rename_i hprefers
    rw [hiff] at hprefers
    refine ⟨hlast, fun {p} hp hpresent _ => (hold hp hpresent).symm, fun hfar => ?_⟩
    have hfar := hfar n hlast hn
    omega

/-- It is settled for one more neighbour if the present parent is the best so far. -/
theorem Settles.append_of_present (hbest : present = some best.address) :
    o.Settles present (ns ++ [n]) (min (o.rankThrough n).toNat m)
      (if o.prefers present best n then best else n) := by
  have hold {p : Neighbor} (hp : p ∈ ns ++ [n]) (hpresent : present = some p.address) :
      p ∈ ns := by
    rcases List.mem_append.1 hp with hp | hp
    · exact hp
    · rw [List.mem_singleton.1 hp, hbest] at hpresent
      exact absurd (Option.some.inj hpresent) (hdistinct best h.mem)
  have hmem : best ∈ ns ++ [n] := List.mem_append_left _ h.mem
  have hnear := h.rank_eq_or_lt
  have hiff := prefers_iff_of_left (o := o) hbest (hdistinct best h.mem)
  split
  · rename_i hprefers
    rw [hiff] at hprefers
    refine ⟨hmem, fun {p} hp hpresent hlt => ?_, fun hfar => ?_⟩
    · exact h.eq_of_lt (hold hp hpresent) hpresent (by omega)
    · have hfar := hfar best hmem hbest
      omega
  · rename_i hprefers
    rw [hiff] at hprefers
    have hlast : n ∈ ns ++ [n] := List.mem_append_right _ (List.mem_singleton_self n)
    refine ⟨hlast, fun {p} hp hpresent hlt => ?_, fun _ => by omega⟩
    have hkept := h.eq_of_lt (hold hp hpresent) hpresent (by omega)
    rw [hkept] at hprefers
    omega

omit hdistinct in
/-- It is settled for one more neighbour if neither that nor the best so far is the present
parent. -/
theorem Settles.append_of_ne (hbest : present ≠ some best.address)
    (hn : present ≠ some n.address) :
    o.Settles present (ns ++ [n]) (min (o.rankThrough n).toNat m)
      (if o.prefers present best n then best else n) := by
  have hleast := h.rank_eq_of_ne hbest
  -- wherever the present parent is, it was not close enough to be chosen
  have hfar {p : Neighbor} (hp : p ∈ ns ++ [n]) (hpresent : present = some p.address) :
      m + o.hysteresis.toNat ≤ (o.rankThrough p).toNat := by
    rcases List.mem_append.1 hp with hp | hp
    · by_contra hnear
      rw [h.eq_of_lt hp hpresent (Nat.not_le.1 hnear)] at hbest
      exact hbest hpresent
    · rw [List.mem_singleton.1 hp] at hpresent
      exact absurd hpresent hn
  have hiff := prefers_iff_of_ne (o := o) hbest hn
  split
  · rename_i hprefers
    rw [hiff] at hprefers
    refine ⟨List.mem_append_left _ h.mem, fun {p} hp hpresent hnear => ?_, fun _ => by omega⟩
    have hfar := hfar hp hpresent
    omega
  · rename_i hprefers
    rw [hiff] at hprefers
    refine ⟨List.mem_append_right _ (List.mem_singleton_self n), fun {p} hp hpresent hnear => ?_,
      fun _ => by omega⟩
    have hfar := hfar hp hpresent
    omega

/-- One more comparison settles the choice for one more neighbour. -/
theorem Settles.append :
    o.Settles present (ns ++ [n]) (min (o.rankThrough n).toNat m)
      (if o.prefers present best n then best else n) := by
  by_cases hn : present = some n.address
  · exact h.append_present hdistinct hn
  · by_cases hbest : present = some best.address
    · exact h.append_of_present hdistinct hbest
    · exact h.append_of_ne hbest hn

end Append

/-- A neighbour more may have the least rank. -/
theorem isLeast_ranks_append (h : IsLeast (o.ranks ns) m) (n : Neighbor) :
    IsLeast (o.ranks (ns ++ [n])) (min (o.rankThrough n).toNat m) := by
  have hset : o.ranks (ns ++ [n]) = insert (o.rankThrough n).toNat (o.ranks ns) := by
    ext k
    simp [ranks, or_and_right, exists_or, or_comm, eq_comm]
  rw [hset]
  exact h.insert _

/-- Among neighbours of different addresses, the choice settles. -/
theorem exists_settles (hne : ns ≠ []) (hdistinct : (ns.map (·.address)).Nodup)
    (present : Option Address) :
    ∃ m best, IsLeast (o.ranks ns) m ∧ o.select present ns = some best ∧
      o.Settles present ns m best := by
  obtain ⟨n, ns, rfl⟩ := List.exists_cons_of_ne_nil hne
  -- along the list, from its first element on
  induction ns using List.reverseRecOn with
  | nil =>
    refine ⟨(o.rankThrough n).toNat, n, ?_, rfl, List.mem_singleton_self n, ?_, fun _ => rfl⟩
    · simp [ranks, isLeast_singleton]
    · intro p hp _ _
      exact (List.mem_singleton.1 hp).symm
  | append_singleton ns k ih =>
    rw [← List.cons_append, List.map_append, List.map_singleton, List.nodup_append'] at hdistinct
    obtain ⟨hnodup, -, hdisjoint⟩ := hdistinct
    obtain ⟨m, best, hleast, hselect, hsettles⟩ := ih (List.cons_ne_nil _ _) hnodup
    have hapart : ∀ p ∈ n :: ns, p.address ≠ k.address := fun p hp heq =>
      hdisjoint (List.mem_map_of_mem hp) (heq ▸ List.mem_singleton_self _)
    refine ⟨_, _, isLeast_ranks_append hleast k, ?_, hsettles.append hapart⟩
    simp only [select, Option.some.injEq] at hselect
    simp only [select, List.foldl_append, List.foldl_cons, List.foldl_nil, hselect]

/-- What settles among the same neighbours, in whatever order, gives the same rank. -/
theorem Settles.rank_congr {ns' : List Neighbor} {best' : Neighbor}
    (h : o.Settles present ns m best) (h' : o.Settles present ns' m best')
    (hmem : ∀ p, p ∈ ns ↔ p ∈ ns') : o.rankThrough best = o.rankThrough best' := by
  by_cases hfar : ∀ p ∈ ns, present = some p.address →
      m + o.hysteresis.toNat ≤ (o.rankThrough p).toNat
  · have hfar' : ∀ p ∈ ns', present = some p.address →
        m + o.hysteresis.toNat ≤ (o.rankThrough p).toNat := fun p hp => hfar p ((hmem p).2 hp)
    exact UInt16.toNat_inj.1 ((h.rank_eq hfar).trans (h'.rank_eq hfar').symm)
  · push Not at hfar
    obtain ⟨p, hp, hpresent, hnear⟩ := hfar
    rw [h.eq_of_lt hp hpresent hnear, h'.eq_of_lt ((hmem p).1 hp) hpresent hnear]

end DeliveryRatio

namespace Router

open DeliveryRatio

variable {r : Router} {o : DeliveryRatio} {t : NeighborTable}

/-- A node that has a neighbour with a way to the root has a parent, for which the choice
settles. -/
theorem exists_reselect (ho : r.objective = .deliveryRatio o) (hroot : r.isRoot = false)
    (ht : t.Distinct) (hsome : t.finite ≠ []) :
    ∃ m best, IsLeast (o.ranks t.finite) m ∧ o.Settles r.dag.parent t.finite m best ∧
      r.reselect t = ({ r with dag := { r.dag with
          parent := some best.address, rank := o.rankThrough best } },
        .ok (some best.address)) := by
  obtain ⟨m, best, hleast, hselect, hsettles⟩ := exists_settles hsome ht.finite r.dag.parent
  have hchosen : r.objective.select r.dag.parent t = some best := by
    rw [ho]
    exact hselect
  refine ⟨m, best, hleast, hsettles, ?_⟩
  rw [reselect_of_select hroot hchosen, ho]
  rfl

/-- **The parent under hysteresis.**  A node that is not the root and strives for few losses chooses
among the neighbours that have a way to the root, of which each has one entry.  If the rank over its
present parent is less than the hysteresis above the least rank `m` over all of them, it keeps the
parent, and otherwise it chooses a neighbour of rank `m`; the rank over the neighbour that is chosen
becomes its own, and so does not depend on the order of the table.  Without such neighbours it has
no parent and an infinite rank. -/
theorem reselect_with_hysteresis (ho : r.objective = .deliveryRatio o) (hroot : r.isRoot = false)
    (ht : t.Distinct) :
    (t.finite ≠ [] → ∃ m best, IsLeast {k | ∃ n ∈ t.finite, (o.rankThrough n).toNat = k} m ∧
      best ∈ t.finite ∧
      (∀ p ∈ t.finite, r.dag.parent = some p.address →
        (o.rankThrough p).toNat < m + o.hysteresis.toNat → best = p) ∧
      ((∀ p ∈ t.finite, r.dag.parent = some p.address →
        ¬(o.rankThrough p).toNat < m + o.hysteresis.toNat) → (o.rankThrough best).toNat = m) ∧
      r.reselect t = ({ r with dag := { r.dag with
          parent := some best.address, rank := o.rankThrough best } },
        .ok (some best.address))) ∧
    (t.finite = [] →
      r.reselect t = ({ r with dag := { r.dag with parent := none, rank := Rank.infinite } },
        .error .noEligibleParent)) ∧
    ∀ t' : NeighborTable, t'.entries.Perm t.entries →
      (r.reselect t').1.dag.rank = (r.reselect t).1.dag.rank := by
  refine ⟨fun hsome => ?_, reselect_of_finite_eq_nil hroot, fun t' hperm => ?_⟩
  · obtain ⟨m, best, hleast, hsettles, hreselect⟩ := exists_reselect ho hroot ht hsome
    refine ⟨m, best, hleast, hsettles.mem, fun p hp => hsettles.eq_of_lt hp, fun hfar => ?_,
      hreselect⟩
    exact hsettles.rank_eq fun p hp hpresent => Nat.not_lt.1 (hfar p hp hpresent)
  · have hfinite : t'.finite.Perm t.finite := hperm.filter _
    have hnil : t'.finite = [] ↔ t.finite = [] := by
      rw [← List.length_eq_zero_iff, ← List.length_eq_zero_iff, hfinite.length_eq]
    have ht' : t'.Distinct := ((hperm.map _).nodup_iff).2 ht
    by_cases hnone : t.finite = []
    · rw [reselect_of_finite_eq_nil hroot hnone, reselect_of_finite_eq_nil hroot (hnil.2 hnone)]
    · have hsome' : t'.finite ≠ [] := mt hnil.1 hnone
      obtain ⟨m, best, hleast, hsettles, hreselect⟩ := exists_reselect ho hroot ht hnone
      obtain ⟨m', best', hleast', hsettles', hreselect'⟩ := exists_reselect ho hroot ht' hsome'
      have hranks : o.ranks t'.finite = o.ranks t.finite := by
        ext k
        simp only [ranks, hfinite.mem_iff]
      rw [hranks] at hleast'
      obtain rfl := hleast.unique hleast'
      rw [hreselect, hreselect']
      exact hsettles'.rank_congr hsettles fun p => hfinite.mem_iff

/-! Three neighbours of a node with hysteresis: its present parent, one that is close to the parent
and is left for it, and one that is better than both but close to the parent too. -/

/-- The node. -/
def steadyRouter : Router :=
  { fresh (.deliveryRatio ⟨1, 100⟩) .none with
    dag := { Dag.detached with rank := 300, parent := some (.ofLastByte 2) } }

/-- Its neighbours. -/
def closeNeighbors : NeighborTable :=
  ⟨[⟨.ofLastByte 1, 260, 65535, 0, 0⟩, ⟨.ofLastByte 2, 300, 65535, 0, 0⟩,
    ⟨.ofLastByte 3, 220, 65535, 0, 0⟩]⟩

/-- The present parent stays, in either order of the table. -/
theorem reselect_with_hysteresis_closeNeighbors :
    steadyRouter.isRoot = false ∧ closeNeighbors.Distinct ∧
      (steadyRouter.reselect closeNeighbors).2 = .ok (some (.ofLastByte 2)) ∧
      (steadyRouter.reselect ⟨closeNeighbors.entries.reverse⟩).1.dag.rank =
        (steadyRouter.reselect closeNeighbors).1.dag.rank := by
  have hroot : steadyRouter.isRoot = false := by decide +kernel
  have ht : closeNeighbors.Distinct := by
    unfold NeighborTable.Distinct
    decide +kernel
  obtain ⟨hsome, -, hperm⟩ := reselect_with_hysteresis rfl hroot ht
  refine ⟨hroot, ht, ?_, hperm _ (List.reverse_perm _)⟩
  obtain ⟨m, best, hleast, -, hkept, -, hreselect⟩ := hsome (by decide +kernel)
  have hmin : 221 ≤ m := by
    obtain ⟨n, hn, rfl⟩ := hleast.1
    have hall : ∀ n ∈ closeNeighbors.finite,
        221 ≤ ((⟨1, 100⟩ : DeliveryRatio).rankThrough n).toNat := by decide +kernel
    exact hall n hn
  have hrank : ((⟨1, 100⟩ : DeliveryRatio).rankThrough
      ⟨.ofLastByte 2, 300, 65535, 0, 0⟩).toNat = 301 := by decide +kernel
  have hbest : best = ⟨.ofLastByte 2, 300, 65535, 0, 0⟩ := by
    refine hkept _ (by decide +kernel) rfl ?_
    rw [hrank]
    exact Nat.lt_of_lt_of_le (by decide) (Nat.add_le_add_right hmin 100)
  rw [hreselect, hbest]

end Router

end SlottedMesh
