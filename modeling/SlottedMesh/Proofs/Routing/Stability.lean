import Mathlib.Logic.Function.Iterate
import SlottedMesh.Proofs.Routing.Hysteresis
import SlottedMesh.Proofs.Routing.Ties

/-!
# Choosing again

Under delivery ratios a comparison that ends in a tie is won by the neighbour that comes second, and
so of several neighbours of the least rank the last one is chosen, as long as hysteresis does not
keep the present parent (`Router.reselect_latest`).  The neighbour that was heard of first does not
keep its place (`Router.not_forall_reselect_earliest`).

What is chosen then is the present parent at the next choice, and it wins that too
(`DeliveryRatio.select_again`): with hysteresis because it is close to the least rank, without
because the last of the least is the last again.  Therefore a node that hears nothing new does not
change its mind: `Router.reselect_again` for one more choice, `Router.reselect_settles` for any
number of them.
-/

namespace SlottedMesh

/-! ## Of the least ranks the last -/

namespace DeliveryRatio

variable {o : DeliveryRatio} {present : Option Address} {ns before after : List Neighbor}
  {p q n best : Neighbor} {m : Nat}

/-- A comparison in which one neighbour has the least rank `m`, and the present parent is out of
reach of it, is one of ranks; the second wins a tie. -/
theorem prefers_iff_of_far (hm : (o.rankThrough p).toNat = m ∨ (o.rankThrough q).toNat = m)
    (hp : present = some p.address → m + o.hysteresis.toNat ≤ (o.rankThrough p).toNat)
    (hq : present = some q.address → m + o.hysteresis.toNat ≤ (o.rankThrough q).toNat) :
    o.prefers present p q = true ↔ (o.rankThrough p).toNat < (o.rankThrough q).toNat := by
  have hfirst : ¬(o.close p q = true ∧ present = some p.address) := by
    rintro ⟨hclose, hpresent⟩
    simp only [close, decide_eq_true_eq] at hclose
    have hfar := hp hpresent
    omega
  have hsecond : ¬(o.close p q = true ∧ present = some q.address) := by
    rintro ⟨hclose, hpresent⟩
    simp only [close, decide_eq_true_eq] at hclose
    have hfar := hq hpresent
    omega
  unfold prefers
  rw [if_neg hfirst, if_neg hsecond, decide_eq_true_eq, UInt16.lt_iff_toNat_lt]

/-- Where the list is split, the best of the first part is compared with what comes next. -/
theorem select_append_cons (o : DeliveryRatio) (present : Option Address)
    (before after : List Neighbor) (n : Neighbor) :
    ∃ k ∈ before ++ [n], o.select present (before ++ n :: after) =
      o.select present ((if o.prefers present k n then k else n) :: after) := by
  cases before with
  | nil => exact ⟨n, List.mem_singleton_self n, by simp [select]⟩
  | cons k ks =>
    have hmem : ks.foldl (fun best m => if o.prefers present best m then best else m) k ∈
        k :: ks := select_mem rfl
    refine ⟨_, List.mem_append_left _ hmem, ?_⟩
    simp only [List.cons_append, select, List.foldl_append, List.foldl_cons]

/-- A neighbour that is preferred to all that follow is chosen. -/
theorem select_cons_of_prefers (h : ∀ q ∈ after, o.prefers present n q = true) :
    o.select present (n :: after) = some n := by
  induction after with
  | nil => rfl
  | cons q qs ih =>
    obtain ⟨hq, hqs⟩ := List.forall_mem_cons.1 h
    simp only [select, List.foldl_cons, hq, if_true]
    exact ih hqs

/-- Of the neighbours of the least rank the last is chosen, if the present parent is out of
reach. -/
theorem select_eq_of_latest
    (hbest : Latest (fun _ => True) (fun n => (o.rankThrough n).toNat) ns best)
    (hfar : ∀ p ∈ ns, present = some p.address →
      (o.rankThrough best).toNat + o.hysteresis.toNat ≤ (o.rankThrough p).toNat) :
    o.select present ns = some best := by
  obtain ⟨before, after, rfl, hbefore, hafter⟩ := hbest.splits
  have hmem : best ∈ before ++ best :: after := List.mem_append_right _ List.mem_cons_self
  obtain ⟨k, hk, hselect⟩ := o.select_append_cons present before after best
  -- the best so far has no lower rank, and so it gives way
  have hloses : ¬o.prefers present k best = true := by
    have hk' : k ∈ before ++ best :: after ∧
        (o.rankThrough best).toNat ≤ (o.rankThrough k).toNat := by
      rcases List.mem_append.1 hk with hk | hk
      · exact ⟨List.mem_append_left _ hk, hbefore k hk trivial⟩
      · rw [List.mem_singleton.1 hk]
        exact ⟨hmem, Nat.le_refl _⟩
    rw [prefers_iff_of_far (.inr rfl) (hfar k hk'.1) (hfar best hmem)]
    exact Nat.not_lt.2 hk'.2
  rw [hselect, if_neg hloses]
  refine select_cons_of_prefers fun q hq => ?_
  rw [prefers_iff_of_far (.inl rfl) (hfar best hmem)
    (hfar q (List.mem_append_right _ (List.mem_cons_of_mem _ hq)))]
  exact hafter q hq trivial

/-- The neighbour that was chosen is chosen again, when it is the present parent. -/
theorem select_again (hdistinct : (ns.map (·.address)).Nodup)
    (h : o.select present ns = some best) : o.select (some best.address) ns = some best := by
  have hmem : best ∈ ns := select_mem h
  have hne : ns ≠ [] := List.ne_nil_of_mem hmem
  obtain ⟨m, first, hleast, hfirst, hsettles⟩ := exists_settles (o := o) hne hdistinct present
  obtain rfl : first = best := Option.some.inj (hfirst.symm.trans h)
  by_cases hnear : (o.rankThrough first).toNat < m + o.hysteresis.toNat
  · obtain ⟨m', again, hleast', hagain, hsettles'⟩ :=
      exists_settles (o := o) hne hdistinct (some first.address)
    obtain rfl := hleast.unique hleast'
    rw [hagain, hsettles'.eq_of_lt hmem rfl hnear]
  · -- there is no hysteresis, and both times the last of the least ranks is chosen
    have hnone : o.hysteresis.toNat = 0 := by
      have hcases := hsettles.rank_eq_or_lt
      omega
    obtain ⟨last, hlast⟩ := exists_latest (fun n => (o.rankThrough n).toNat) hmem
    have hchosen (present : Option Address) : o.select present ns = some last := by
      refine select_eq_of_latest hlast fun p hp _ => ?_
      rw [hnone]
      exact hlast.key_le hp trivial
    rw [hchosen, ← h, hchosen]

end DeliveryRatio

/-! ## The parent of a node -/

/-- The neighbour that was chosen is chosen again, whatever the node strives for. -/
theorem Objective.select_again {o : Objective} {present : Option Address} {t : NeighborTable}
    {n : Neighbor} (ht : t.Distinct) (h : o.select present t = some n) :
    o.select (some n.address) t = some n := by
  cases o with
  | hopCount o => exact h
  | deliveryRatio o => exact DeliveryRatio.select_again ht.finite h

namespace Router

open DeliveryRatio

variable {r : Router} {o : DeliveryRatio} {t : NeighborTable} {m : Nat}

/-- **The last of the least.**  A node that is not the root and strives for few losses has
neighbours that have a way to the root, over which the least rank is `m`; the rank over its present
parent is not close enough to that for hysteresis to keep the parent.  Then it chooses the neighbour
of rank `m` that is the last in the table.  In a table with one entry for each neighbour this is the
first one of rank `m` only if there is no other. -/
theorem reselect_latest (ho : r.objective = .deliveryRatio o) (hroot : r.isRoot = false)
    (hm : IsLeast {k | ∃ n ∈ t.finite, (o.rankThrough n).toNat = k} m)
    (hfar : ∀ p ∈ t.finite, r.dag.parent = some p.address →
      ¬(o.rankThrough p).toNat < m + o.hysteresis.toNat) :
    ∃ best, (o.rankThrough best).toNat = m ∧
      Latest (fun n => n.isFinite = true) (fun n => (o.rankThrough n).toNat) t.entries best ∧
      r.reselect t = ({ r with dag := { r.dag with
          parent := some best.address, rank := o.rankThrough best } },
        .ok (some best.address)) ∧
      (t.Distinct → (Earliest (fun n => n.isFinite = true) (fun n => (o.rankThrough n).toNat)
        t.entries best ↔ ∀ n ∈ t.finite, (o.rankThrough n).toNat = m → n = best)) := by
  obtain ⟨n, hn, hrank⟩ := hm.1
  obtain ⟨best, hlast⟩ := exists_latest (fun n => (o.rankThrough n).toNat) hn
  have hbest : (o.rankThrough best).toNat = m := by
    refine Nat.le_antisymm ?_ (hm.2 ⟨best, hlast.mem, rfl⟩)
    rw [← hrank]
    exact hlast.key_le hn trivial
  have hchosen : r.objective.select r.dag.parent t = some best := by
    rw [ho]
    refine select_eq_of_latest hlast fun p hp hpresent => ?_
    rw [hbest]
    exact Nat.not_lt.1 (hfar p hp hpresent)
  refine ⟨best, hbest, hlast.of_filter, ?_, fun ht => ?_⟩
  · rw [reselect_of_select hroot hchosen, ho]
    rfl
  · rw [hlast.of_filter.earliest_iff (List.Nodup.of_map _ ht)]
    refine ⟨fun honly n hn hrank => ?_, fun honly n hn hfinite hle => ?_⟩
    · obtain ⟨hn, hfinite⟩ := List.mem_filter.1 hn
      exact honly n hn hfinite (by rw [hrank, hbest])
    · have hn' : n ∈ t.finite := List.mem_filter.2 ⟨hn, hfinite⟩
      exact honly n hn' (Nat.le_antisymm (by rw [← hbest]; exact hle) (hm.2 ⟨n, hn', rfl⟩))

/-! Four neighbours of a node that has to leave its parent: the best two are equally good, and
between them is one that has no way to the root. -/

/-- The node. -/
def leavingRouter : Router :=
  { fresh (.deliveryRatio ⟨1, 2⟩) .none with
    dag := { Dag.detached with rank := 10, parent := some (.ofLastByte 4) } }

/-- Its neighbours. -/
def tiedNeighbors : NeighborTable :=
  ⟨[⟨.ofLastByte 1, 5, 65535, 0, 0⟩, ⟨.ofLastByte 2, 65535, 65535, 0, 0⟩,
    ⟨.ofLastByte 3, 5, 65535, 0, 0⟩, ⟨.ofLastByte 4, 9, 65535, 0, 0⟩]⟩

/-- The neighbours have addresses of their own. -/
theorem distinct_tiedNeighbors : tiedNeighbors.Distinct := by
  unfold NeighborTable.Distinct
  decide +kernel

/-- The least rank through any of them is six. -/
theorem isLeast_tiedNeighbors :
    IsLeast {k | ∃ n ∈ tiedNeighbors.finite,
      ((⟨1, 2⟩ : DeliveryRatio).rankThrough n).toNat = k} 6 := by
  refine ⟨⟨⟨.ofLastByte 1, 5, 65535, 0, 0⟩, by decide +kernel, by decide +kernel⟩, ?_⟩
  rintro k ⟨n, hn, rfl⟩
  have hall : ∀ n ∈ tiedNeighbors.finite,
      6 ≤ ((⟨1, 2⟩ : DeliveryRatio).rankThrough n).toNat := by decide +kernel
  exact hall n hn

/-- The later of the two that are tied is chosen. -/
theorem reselect_latest_tiedNeighbors :
    leavingRouter.isRoot = false ∧
      (leavingRouter.reselect tiedNeighbors).2 = .ok (some (.ofLastByte 3)) := by
  have hroot : leavingRouter.isRoot = false := by decide +kernel
  refine ⟨hroot, ?_⟩
  obtain ⟨best, -, hlast, hreselect, -⟩ :=
    reselect_latest rfl hroot isLeast_tiedNeighbors (by decide +kernel)
  have hthird : Latest (fun n => n.isFinite = true)
      (fun n => ((⟨1, 2⟩ : DeliveryRatio).rankThrough n).toNat) tiedNeighbors.entries
      ⟨.ofLastByte 3, 5, 65535, 0, 0⟩ :=
    ⟨by decide, tiedNeighbors.entries.take 2, tiedNeighbors.entries.drop 3, rfl,
      by decide +kernel, by decide +kernel⟩
  rw [hreselect, hlast.unique hthird]

/-- Of several neighbours of the least rank, the one that is the first in the table does not keep
its place. -/
theorem not_forall_reselect_earliest :
    ¬∀ (r : Router) (o : DeliveryRatio) (t : NeighborTable) (m : Nat),
      r.objective = .deliveryRatio o → r.isRoot = false → t.Distinct →
      IsLeast {k | ∃ n ∈ t.finite, (o.rankThrough n).toNat = k} m →
      (∃ p ∈ t.finite, ∃ q ∈ t.finite, p ≠ q ∧ (o.rankThrough p).toNat = m ∧
        (o.rankThrough q).toNat = m) →
      (∀ p ∈ t.finite, r.dag.parent = some p.address →
        ¬(o.rankThrough p).toNat < m + o.hysteresis.toNat) →
      ∃ best, Earliest (fun n => n.isFinite = true) (fun n => (o.rankThrough n).toNat)
          t.entries best ∧
        (r.reselect t).2 = .ok (some best.address) := by
  intro hclaim
  obtain ⟨best, hbest, hreselect⟩ := hclaim leavingRouter ⟨1, 2⟩ tiedNeighbors 6 rfl
    (by decide +kernel) distinct_tiedNeighbors isLeast_tiedNeighbors
    ⟨⟨.ofLastByte 1, 5, 65535, 0, 0⟩, by decide +kernel,
      ⟨.ofLastByte 3, 5, 65535, 0, 0⟩, by decide +kernel, by decide +kernel, by decide +kernel,
      by decide +kernel⟩
    (by decide +kernel)
  have hfirst : Earliest (fun n => n.isFinite = true)
      (fun n => ((⟨1, 2⟩ : DeliveryRatio).rankThrough n).toNat) tiedNeighbors.entries
      ⟨.ofLastByte 1, 5, 65535, 0, 0⟩ := .head (by decide) (by decide +kernel)
  have hthird : (leavingRouter.reselect tiedNeighbors).2 = .ok (some (.ofLastByte 3)) := by
    decide +kernel
  rw [hbest.unique hfirst, hthird] at hreselect
  revert hreselect
  decide

/-- Choosing once more from the same table changes nothing; the answer is the same too, unless the
rank that was reached is that of the root. -/
theorem reselect_again (ht : t.Distinct) :
    (r.reselect t).1.reselect t =
      ((r.reselect t).1, if (r.reselect t).1.isRoot then .ok none else (r.reselect t).2) := by
  cases hroot : r.isRoot with
  | true => rw [reselect_of_isRoot hroot, reselect_of_isRoot hroot, hroot, if_pos rfl]
  | false =>
    cases hstays : (r.reselect t).1.isRoot with
    | true => rw [reselect_of_isRoot hstays, if_pos rfl]
    | false =>
      rw [if_neg Bool.false_ne_true]
      rcases hp : r.objective.select r.dag.parent t with _ | p
      · have hnone := Objective.select_eq_none_iff.1 hp
        rw [reselect_of_finite_eq_nil hroot hnone] at hstays ⊢
        rw [reselect_of_finite_eq_nil hstays hnone]
      · rw [reselect_of_select hroot hp] at hstays ⊢
        rw [reselect_of_select hstays (Objective.select_again ht hp)]

/-- **No news, no change.**  However often a node chooses its parent from the same table, it stays
as the first choice left it, with its parent and its rank. -/
theorem reselect_settles (r : Router) (ht : t.Distinct) (n : Nat) :
    (fun q : Router => (q.reselect t).1)^[n] (r.reselect t).1 = (r.reselect t).1 :=
  Function.iterate_fixed (congrArg Prod.fst (reselect_again ht)) n

/-- It is still the parent a thousand choices later. -/
theorem reselect_settles_tiedNeighbors :
    leavingRouter.dag.parent = some (.ofLastByte 4) ∧
      ((fun q : Router => (q.reselect tiedNeighbors).1)^[1000]
        (leavingRouter.reselect tiedNeighbors).1).dag.parent = some (.ofLastByte 3) := by
  refine ⟨rfl, ?_⟩
  rw [reselect_settles leavingRouter distinct_tiedNeighbors 1000]
  decide +kernel

end Router

end SlottedMesh
