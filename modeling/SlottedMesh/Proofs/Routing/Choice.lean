import SlottedMesh.Proofs.Routing.Table
import SlottedMesh.Routing.Router

/-!
# The choice of a parent

Under either objective a node chooses among the neighbours that have a way to the root, and it
chooses one if there is one (`select_mem_finite`, `select_eq_none_iff`).  The rank over a parent is
at least one hop more than the parent's own, as far as ranks can tell (`add_le_rankThrough`); so it
is never the rank of the root, unless the parent itself advertises rank zero or ranks cannot tell
the root from a node without a parent (`rankThrough_ne_rankIncrease`).

A router that chooses is the root, finds nobody or takes what its objective selects, and
`Router.reselect_cases` says what becomes of it in each case.
-/

namespace SlottedMesh

/-! ## Under hop counting -/

namespace HopCount

variable {α : Type} {neighbor : α → Neighbor} {band : UInt16} {candidates : List α} {c : α}

/-- What is chosen is a candidate with a finite rank. -/
theorem selectBy_mem (h : selectBy neighbor band candidates = some c) :
    c ∈ candidates.filter fun c => (neighbor c).isFinite := by
  unfold selectBy at h
  obtain ⟨best, hbest, rfl⟩ := Option.map_eq_some_iff.1 h
  rcases List.mem_cons.1 (leastFrom_mem _ best _) with hfirst | hrest
  · rw [hfirst]
    exact least?_mem hbest
  · exact List.mem_of_mem_filter hrest

/-- Nobody is chosen only where nobody has a way to the root. -/
theorem selectBy_eq_none_iff :
    selectBy neighbor band candidates = none ↔
      (candidates.filter fun c => (neighbor c).isFinite) = [] := by
  unfold selectBy
  cases candidates.filter fun c => (neighbor c).isFinite <;> simp [least?]

end HopCount

/-! ## Under delivery ratios -/

namespace DeliveryRatio

variable {o : DeliveryRatio} {present : Option Address} {ns : List Neighbor} {n : Neighbor}

/-- The choice among neighbours is one of them, -/
theorem select_mem (h : o.select present ns = some n) : n ∈ ns := by
  cases ns with
  | nil => cases h
  | cons m ms =>
    cases h
    -- each neighbour in turn either takes the place of the best one so far or leaves it
    induction ms generalizing m with
    | nil => exact List.mem_cons_self
    | cons k ks ih =>
      rw [List.foldl_cons]
      split
      · exact List.cons_subset_cons _ (List.subset_cons_self _ _) (ih m)
      · exact List.mem_cons_of_mem _ (ih k)

/-- and there is one wherever there is a neighbour. -/
theorem select_eq_none_iff : o.select present ns = none ↔ ns = [] := by
  cases ns <;> simp [select]

end DeliveryRatio

/-! ## Under either objective -/

namespace Objective

variable {o : Objective} {present : Option Address} {t : NeighborTable} {n : Neighbor}
  {parent : Option Neighbor}

/-- Under either objective the parent is one that has a way to the root, -/
theorem select_mem_finite (h : o.select present t = some n) : n ∈ t.finite := by
  cases o with
  | hopCount o => exact HopCount.selectBy_mem h
  | deliveryRatio o => exact DeliveryRatio.select_mem h

/-- and there is one wherever someone has. -/
theorem select_eq_none_iff : o.select present t = none ↔ t.finite = [] := by
  cases o with
  | hopCount o => exact HopCount.selectBy_eq_none_iff
  | deliveryRatio o => exact DeliveryRatio.select_eq_none_iff

/-- Each hop adds to the rank, until ranks go no further. -/
theorem add_le_rankThrough (o : Objective) (n : Neighbor) :
    min (n.rank.toNat + o.rankIncrease.toNat) Rank.infinite.toNat ≤
      (o.rankThrough (some n)).toNat := by
  have hinfinite : Rank.infinite.toNat = UInt16.size - 1 := rfl
  cases o with
  | hopCount o =>
    show _ ≤ (saturate16 (n.rank.toNat + o.rankIncrease.toNat)).toNat
    rw [toNat_saturate16, hinfinite]
    exact Nat.le_refl _
  | deliveryRatio o =>
    show min (n.rank.toNat + o.rankIncrease.toNat) _ ≤
      (saturate16 (max (DeliveryRatio.pathLoss n) (n.rank.toNat + o.rankIncrease.toNat))).toNat
    rw [toNat_saturate16, hinfinite]
    omega

/-- The rank over a parent, or without one, is not the rank of the root. -/
theorem rankThrough_ne_rankIncrease (ho : o.rankIncrease ≠ Rank.infinite)
    (hparent : ∀ n ∈ parent, n.rank ≠ 0) : o.rankThrough parent ≠ o.rankIncrease := by
  cases parent with
  | none => exact ho.symm
  | some n =>
    intro heq
    have hfloor := o.add_le_rankThrough n
    rw [heq] at hfloor
    have hpos : n.rank.toNat ≠ 0 := fun hzero => hparent n rfl (UInt16.toNat_inj.1 hzero)
    have hinfinite : o.rankIncrease.toNat ≠ Rank.infinite.toNat :=
      fun hsame => ho (UInt16.toNat_inj.1 hsame)
    have hlt : o.rankIncrease.toNat < 2 ^ 16 := o.rankIncrease.toNat_lt
    have hvalue : Rank.infinite.toNat = 2 ^ 16 - 1 := rfl
    omega

end Objective

/-! ## By a router -/

namespace Router

variable {r : Router} {t : NeighborTable} {p : Neighbor}

/-- The root chooses no parent. -/
theorem reselect_of_isRoot (h : r.isRoot = true) (t : NeighborTable) :
    r.reselect t = (r, .ok none) := by
  unfold reselect
  rw [if_pos h]

/-- Without a neighbour that has a way to the root, a node that is not the root has no parent. -/
theorem reselect_of_finite_eq_nil (hroot : r.isRoot = false) (hnone : t.finite = []) :
    r.reselect t = ({ r with dag := { r.dag with parent := none, rank := Rank.infinite } },
      .error .noEligibleParent) := by
  unfold reselect
  rw [hroot, Objective.select_eq_none_iff.2 hnone]
  rfl

/-- The parent that is selected is taken, with the rank through it. -/
theorem reselect_of_select (hroot : r.isRoot = false)
    (hp : r.objective.select r.dag.parent t = some p) :
    r.reselect t = ({ r with dag := { r.dag with
        parent := some p.address, rank := r.objective.rankThrough (some p) } },
      .ok (some p.address)) := by
  unfold reselect
  rw [hroot, hp]
  rfl

/-- All that can become of a router that chooses. -/
theorem reselect_cases (r : Router) (t : NeighborTable) :
    (r.isRoot = true ∧ r.reselect t = (r, .ok none)) ∨
    (t.finite = [] ∧
      r.reselect t = ({ r with dag := { r.dag with parent := none, rank := Rank.infinite } },
        .error .noEligibleParent)) ∨
    ∃ p ∈ t.finite,
      r.reselect t = ({ r with dag := { r.dag with
          parent := some p.address, rank := r.objective.rankThrough (some p) } },
        .ok (some p.address)) := by
  cases hroot : r.isRoot with
  | true => exact .inl ⟨rfl, reselect_of_isRoot hroot t⟩
  | false =>
    rcases hp : r.objective.select r.dag.parent t with _ | p
    · have hnone := Objective.select_eq_none_iff.1 hp
      exact .inr (.inl ⟨hnone, reselect_of_finite_eq_nil hroot hnone⟩)
    · exact .inr (.inr ⟨p, Objective.select_mem_finite hp, reselect_of_select hroot hp⟩)

end Router

end SlottedMesh
