import SlottedMesh.Proofs.Checked.Arithmetic
import SlottedMesh.Routing.Router

/-!
# Routing without a stop

Metrics are averages of metrics and stay within sixteen bits, so that their products with weights
have room in thirty-two; ranks over delivery ratios are products of two fractions of `2 ^ 16` and
have room in sixty-four; ranks are compared in words with a sign.  Here is how each of them is
computed step by step in such words, and that nothing stops, whatever neighbours advertise and
however many attempts a transmission took:

* `checkedNextMetric_eq` and `checkedRankThrough_eq`, for both objectives;
* `checkedLearn_eq`, `checkedPathCost_eq` and `checkedSelect_eq`, for what is made of them;
* `checkedReselect_eq` and `checkedRefresh_eq`, for the steps of a router.
-/

namespace SlottedMesh

open Checked

/-! ## Hop counting -/

namespace HopCount

/-- The transmissions that one outcome speaks of. -/
def checkedSample (outcome : Outcome) (attempts : UInt16) : Checked Nat :=
  match outcome with
  | .unacknowledged => mul UInt32.size penalty unit
  | _ => mul UInt32.size attempts.toNat unit

/-- The average after one outcome. -/
def checkedNextMetric (n : Neighbor) (outcome : Outcome) (attempts : UInt16) : Checked UInt16 := do
  let keep := weight n.txCount
  let packet ← checkedSample outcome attempts
  let old ← mul UInt32.size n.linkMetric.toNat keep
  let rest ← sub 100 keep
  let fresh ← mul UInt32.size packet rest
  let total ← add UInt32.size old fresh
  let average ← div total 100
  return saturate16 average

/-- The parent among these neighbours. -/
def checkedSelect (o : HopCount) (candidates : List Neighbor) : Checked (Option Neighbor) :=
  let finite := candidates.filter (·.isFinite)
  match least? (·.linkMetric.toNat) finite with
  | none => return none
  | some best => do
    let limit ← add UInt32.size best.linkMetric.toNat o.band.toNat
    return some (leastFrom (·.rank.toNat) best (finite.filter (·.linkMetric.toNat < limit)))

/-- A sample has room in its word, however many attempts there were. -/
theorem checkedSample_eq (outcome : Outcome) (attempts : UInt16) :
    checkedSample outcome attempts = pure (sample outcome attempts) := by
  have hattempts := attempts.toNat_lt
  have hproduct : attempts.toNat * unit < UInt32.size := by
    unfold unit UInt32.size
    omega
  cases outcome with
  | unacknowledged => rfl
  | _ => exact mul_eq hproduct

/-- The weighted mean of the metric and a sample has room. -/
theorem checkedNextMetric_eq (n : Neighbor) (outcome : Outcome) (attempts : UInt16) :
    checkedNextMetric n outcome attempts = pure (nextMetric n outcome attempts) := by
  have hmetric := n.linkMetric.toNat_lt
  have hattempts := attempts.toNat_lt
  have hkeep : weight n.txCount ≤ 90 := by
    unfold weight
    split <;> decide
  have hsample : sample outcome attempts ≤ 65535 * 128 := by
    unfold sample penalty unit
    split <;> omega
  have hold : n.linkMetric.toNat * weight n.txCount ≤ 65535 * 90 :=
    Nat.mul_le_mul (by omega) hkeep
  have hfresh : sample outcome attempts * (100 - weight n.txCount) ≤ 65535 * 128 * 100 :=
    Nat.mul_le_mul hsample (Nat.sub_le _ _)
  unfold checkedNextMetric
  rw [checkedSample_eq, pure_bind, mul_eq (by unfold UInt32.size; omega), pure_bind,
    sub_eq (by omega), pure_bind, mul_eq (by unfold UInt32.size; omega), pure_bind,
    add_eq (by unfold UInt32.size; omega), pure_bind, div_eq (by decide), pure_bind]
  rfl

/-- The metric and the band have room together, so that the choice does not stop. -/
theorem checkedSelect_eq (o : HopCount) (candidates : List Neighbor) :
    o.checkedSelect candidates = pure (o.select candidates) := by
  unfold checkedSelect select selectBy
  simp only [id]
  cases least? (·.linkMetric.toNat) (candidates.filter (·.isFinite)) with
  | none => rfl
  | some best =>
    have hmetric := best.linkMetric.toNat_lt
    have hband := o.band.toNat_lt
    simp only []
    rw [add_eq (by unfold UInt32.size; omega)]
    rfl

end HopCount

/-! ## Delivery ratios -/

namespace DeliveryRatio

/-- The ratio after an attempt that failed. -/
def checkedAfterFailure (ratio : Nat) : Checked Nat := do
  let kept ← mul UInt32.size ratio 98
  div kept 100

/-- The ratio after an attempt that succeeded. -/
def checkedAfterSuccess (ratio : Nat) : Checked Nat := do
  let kept ← mul UInt32.size ratio 98
  let rest ← sub 100 98
  let gain ← mul UInt32.size one rest
  let total ← add UInt32.size kept gain
  div total 100

/-- The ratio after one outcome. -/
def checkedNextMetric (n : Neighbor) (outcome : Outcome) (attempts : UInt16) : Checked UInt16 := do
  let before ← iterate checkedAfterFailure (attempts.toNat - 1) n.linkMetric.toNat
  let ratio ← match outcome with
    | .unacknowledged => checkedAfterFailure before
    | _ => checkedAfterSuccess before
  return saturate16 ratio

/-- The expected transmissions at a delivery ratio. -/
def checkedToTransmissions (ratio : UInt16) : Checked Nat :=
  if ratio = 0 then return 0
  else do
    let most ← mul UInt32.size 128 one
    div most ratio.toNat

/-- The rank of a node with this parent. -/
def checkedRankThrough (o : DeliveryRatio) (parent : Neighbor) : Checked UInt16 := do
  let linkLoss ← sub base parent.linkMetric.toNat
  let lost ← iterate
    (fun rate => do
      let product ← mul UInt64.size rate linkLoss
      div product base)
    4 base
  let delivered := one - lost
  let parentRatio ← sub base parent.rank.toNat
  let product ← mul UInt64.size parentRatio delivered
  let rounded ← add UInt64.size (base / 2) product
  let path ← div rounded base
  let floor ← add UInt64.size parent.rank.toNat o.rankIncrease.toNat
  return saturate16 (max (one - path) floor)

/-- Whether the ranks over two parents differ by less than the hysteresis. -/
def checkedClose (o : DeliveryRatio) (p q : Neighbor) : Checked Bool := do
  let rankP ← o.checkedRankThrough p
  let rankQ ← o.checkedRankThrough q
  let upper ← signed (rankQ.toNat + o.hysteresis.toNat)
  let lower ← signed (rankQ.toNat - o.hysteresis.toNat)
  return (rankP.toNat : Int) < upper ∧ lower < rankP.toNat

/-- Whether `p` is preferred to `q`. -/
def checkedPrefers (o : DeliveryRatio) (present : Option Address) (p q : Neighbor) :
    Checked Bool := do
  let close ← o.checkedClose p q
  if close ∧ present = some p.address then return true
  else if close ∧ present = some q.address then return false
  else do
    let rankP ← o.checkedRankThrough p
    let rankQ ← o.checkedRankThrough q
    return rankP < rankQ

/-- The parent among these neighbours. -/
def checkedSelect (o : DeliveryRatio) (present : Option Address) :
    List Neighbor → Checked (Option Neighbor)
  | [] => return none
  | n :: ns => do
    let best ← ns.foldlM
      (fun best m => do
        let stays ← o.checkedPrefers present best m
        return if stays then best else m)
      n
    return some best

/-- A ratio that is at most one stays so after a failure, and each product has room. -/
theorem checkedAfterFailure_eq {ratio : Nat} (h : ratio ≤ one) :
    checkedAfterFailure ratio = pure (afterFailure ratio) ∧ afterFailure ratio ≤ one := by
  have hone : one = 65535 := rfl
  refine ⟨?_, ?_⟩
  · unfold checkedAfterFailure
    rw [mul_eq (by unfold UInt32.size; omega), pure_bind, div_eq (by decide)]
    rfl
  · unfold afterFailure
    omega

/-- A ratio that is at most one can be taken from one. -/
theorem checkedAfterSuccess_eq {ratio : Nat} (h : ratio ≤ one) :
    checkedAfterSuccess ratio = pure (afterSuccess ratio) := by
  have hone : one = 65535 := rfl
  unfold checkedAfterSuccess
  rw [mul_eq (by unfold UInt32.size; omega), pure_bind, sub_eq (by decide), pure_bind,
    mul_eq (by decide), pure_bind, add_eq (by unfold UInt32.size; omega), pure_bind,
    div_eq (by decide)]
  rfl

/-- Each attempt that failed keeps the ratio at most one, so that none of them stops. -/
theorem checkedNextMetric_eq (n : Neighbor) (outcome : Outcome) (attempts : UInt16) :
    checkedNextMetric n outcome attempts = pure (nextMetric n outcome attempts) := by
  have hmetric : n.linkMetric.toNat ≤ one := Nat.le_of_lt_succ n.linkMetric.toNat_lt
  obtain ⟨hbefore, hle⟩ := iterate_eq_pure checkedAfterFailure afterFailure (· ≤ one)
    (fun _ => checkedAfterFailure_eq) hmetric (attempts.toNat - 1)
  unfold checkedNextMetric
  rw [hbefore, pure_bind]
  cases outcome with
  | unacknowledged =>
    simp only [(checkedAfterFailure_eq hle).1, pure_bind]
    rfl
  | _ =>
    simp only [checkedAfterSuccess_eq hle, pure_bind]
    rfl

/-- The ratio is divided by only if it is not zero. -/
theorem checkedToTransmissions_eq (ratio : UInt16) :
    checkedToTransmissions ratio = pure (toTransmissions ratio) := by
  unfold checkedToTransmissions toTransmissions
  by_cases hzero : ratio = 0
  · rw [if_pos hzero, if_pos hzero]
  · have hne : ratio.toNat ≠ 0 := fun h => hzero (UInt16.toNat_inj.1 h)
    rw [if_neg hzero, if_neg hzero, mul_eq (by decide), pure_bind, div_eq hne]

/-- No ratio needs more transmissions than the smallest. -/
theorem toTransmissions_le (ratio : UInt16) : toTransmissions ratio ≤ 128 * one := by
  unfold toTransmissions
  split
  · exact Nat.zero_le _
  · exact Nat.div_le_self _ _

/-- The losses over a path have room in their words, whatever the link and the parent's rank. -/
theorem checkedRankThrough_eq (o : DeliveryRatio) (parent : Neighbor) :
    o.checkedRankThrough parent = pure (o.rankThrough parent) := by
  have hbase : base = 65536 := rfl
  have hone : one = 65535 := rfl
  have hmetric := parent.linkMetric.toNat_lt
  have hrank := parent.rank.toNat_lt
  have hincrease := o.rankIncrease.toNat_lt
  have hloss : base - parent.linkMetric.toNat ≤ base := Nat.sub_le _ _
  have hstep : ∀ rate, rate ≤ base →
      (do
        let product ← mul UInt64.size rate (base - parent.linkMetric.toNat)
        div product base) = pure (rate * (base - parent.linkMetric.toNat) / base) ∧
      rate * (base - parent.linkMetric.toNat) / base ≤ base := by
    intro rate hrate
    have hproduct : rate * (base - parent.linkMetric.toNat) ≤ base * base :=
      Nat.mul_le_mul hrate hloss
    rw [mul_eq (Nat.lt_of_le_of_lt hproduct (by decide)), pure_bind, div_eq (by decide)]
    exact ⟨rfl, Nat.div_le_of_le_mul hproduct⟩
  obtain ⟨hlost, -⟩ := iterate_eq_pure _ _ (· ≤ base) hstep (Nat.le_refl base) 4
  have hproduct : (base - parent.rank.toNat) * (one - lossRate parent.linkMetric) ≤ 65536 * 65535 :=
    Nat.mul_le_mul (Nat.sub_le _ _) (Nat.sub_le _ _)
  have hlost : iterate (fun rate => do
      let product ← mul UInt64.size rate (base - parent.linkMetric.toNat)
      div product base) 4 base = pure (lossRate parent.linkMetric) := hlost
  unfold checkedRankThrough
  rw [sub_eq (by omega), pure_bind, hlost, pure_bind]
  simp only []
  rw [sub_eq (by omega), pure_bind, mul_eq (by unfold UInt64.size; omega), pure_bind,
    add_eq (by unfold UInt64.size; omega), pure_bind, div_eq (by decide), pure_bind,
    add_eq (by unfold UInt64.size; omega), pure_bind]
  rfl

/-- Whether two ranks are close is told without a stop. -/
theorem checkedClose_eq (o : DeliveryRatio) (p q : Neighbor) :
    o.checkedClose p q = pure (o.close p q) := by
  have hrank := (o.rankThrough q).toNat_lt
  have hhysteresis := o.hysteresis.toNat_lt
  unfold checkedClose close
  simp only [checkedRankThrough_eq, pure_bind]
  rw [signed_eq (by omega) (by omega), pure_bind, signed_eq (by omega) (by omega), pure_bind]
  congr 1
  rw [decide_eq_decide]
  omega

/-- A comparison of two neighbours does not stop. -/
theorem checkedPrefers_eq (o : DeliveryRatio) (present : Option Address) (p q : Neighbor) :
    o.checkedPrefers present p q = pure (o.prefers present p q) := by
  unfold checkedPrefers prefers
  simp only [checkedClose_eq, checkedRankThrough_eq, pure_bind]
  split
  · rfl
  · split <;> rfl

/-- Nor does the choice among all of them. -/
theorem checkedSelect_eq (o : DeliveryRatio) (present : Option Address) (ns : List Neighbor) :
    o.checkedSelect present ns = pure (o.select present ns) := by
  cases ns with
  | nil => rfl
  | cons n ns =>
    unfold checkedSelect select
    simp only [checkedPrefers_eq, pure_bind, List.foldlM_pure]

end DeliveryRatio

/-! ## Both objectives -/

namespace Objective

/-- What is known of a neighbour after a transmission to it. -/
def checkedLearn (o : Objective) (outcome : Outcome) (attempts : UInt16) (n : Neighbor) :
    Checked Neighbor :=
  match outcome with
  | .other => return n
  | _ => do
    let metric ← match o with
      | .hopCount _ => HopCount.checkedNextMetric n outcome attempts
      | .deliveryRatio _ => DeliveryRatio.checkedNextMetric n outcome attempts
    return { n with
      linkMetric := metric
      txCount := saturate16 (n.txCount.toNat + attempts.toNat) }

/-- The rank of a node with this parent; hop counts saturate. -/
def checkedRankThrough (o : Objective) (parent : Neighbor) : Checked UInt16 :=
  match o with
  | .hopCount o => return o.rankThrough parent
  | .deliveryRatio o => o.checkedRankThrough parent

/-- The transmissions that a packet costs on the way to the root over this parent. -/
def checkedPathCost (o : Objective) (parent : Option Neighbor) : Checked UInt16 :=
  match parent with
  | none => return noPathCost
  | some p => do
    let link ← match o with
      | .hopCount _ => pure p.linkMetric.toNat
      | .deliveryRatio _ => DeliveryRatio.checkedToTransmissions p.linkMetric
    let total ← add UInt32.size p.advertisedMetric.toNat link
    return saturate16 total

/-- The parent that a node chooses from its neighbours. -/
def checkedSelect (o : Objective) (present : Option Address) (t : NeighborTable) :
    Checked (Option Neighbor) :=
  match o with
  | .hopCount o => o.checkedSelect t.entries
  | .deliveryRatio o => o.checkedSelect present t.finite

/-- Under either objective feedback does not stop, -/
theorem checkedLearn_eq (o : Objective) (outcome : Outcome) (attempts : UInt16) (n : Neighbor) :
    o.checkedLearn outcome attempts n = pure (o.learn outcome attempts n) := by
  unfold checkedLearn learn
  cases outcome <;> cases o <;>
    simp only [HopCount.checkedNextMetric_eq, DeliveryRatio.checkedNextMetric_eq, pure_bind]

/-- nor does the rank through a parent, -/
theorem checkedRankThrough_eq (o : Objective) (parent : Neighbor) :
    o.checkedRankThrough parent = pure (o.rankThrough (some parent)) := by
  cases o with
  | hopCount o => rfl
  | deliveryRatio o => exact o.checkedRankThrough_eq parent

/-- nor the cost of the path through it, -/
theorem checkedPathCost_eq (o : Objective) (parent : Option Neighbor) :
    o.checkedPathCost parent = pure (o.pathCost parent) := by
  cases parent with
  | none => rfl
  | some p =>
    have hadvertised := p.advertisedMetric.toNat_lt
    have hmetric := p.linkMetric.toNat_lt
    have hratio := DeliveryRatio.toTransmissions_le p.linkMetric
    have hone : DeliveryRatio.one = 65535 := rfl
    unfold checkedPathCost pathCost linkCost
    cases o with
    | hopCount o =>
      simp only [pure_bind]
      rw [add_eq (by unfold UInt32.size; omega), pure_bind]
    | deliveryRatio o =>
      simp only [DeliveryRatio.checkedToTransmissions_eq, pure_bind]
      rw [add_eq (by unfold UInt32.size; omega), pure_bind]

/-- nor the choice of a parent. -/
theorem checkedSelect_eq (o : Objective) (present : Option Address) (t : NeighborTable) :
    o.checkedSelect present t = pure (o.select present t) := by
  cases o with
  | hopCount o => exact o.checkedSelect_eq t.entries
  | deliveryRatio o => exact o.checkedSelect_eq present t.finite

end Objective

/-! ## Routers -/

/-- Change the entry of an address, if there is one. -/
def NeighborTable.checkedModify (t : NeighborTable) (a : Address)
    (f : Neighbor → Checked Neighbor) : Checked NeighborTable := do
  let entries ← updateFirst t.entries
  return ⟨entries⟩
where
  /-- Change the first entry of a list that has the address. -/
  updateFirst : List Neighbor → Checked (List Neighbor)
    | [] => return []
    | n :: ns =>
      if n.address = a then do
        let n ← f n
        return n :: ns
      else do
        let ns ← updateFirst ns
        return n :: ns

/-- A table is modified without a stop if its entries are. -/
theorem NeighborTable.checkedModify_eq (t : NeighborTable) (a : Address)
    {f' : Neighbor → Checked Neighbor} {f : Neighbor → Neighbor} (h : ∀ n, f' n = pure (f n)) :
    t.checkedModify a f' = pure (t.modify a f) := by
  have hupdate : ∀ ns,
      checkedModify.updateFirst a f' ns = pure (NeighborTable.updateFirst a f ns) := by
    intro ns
    induction ns with
    | nil => rfl
    | cons n ns ih =>
      unfold checkedModify.updateFirst NeighborTable.updateFirst
      simp only [h, ih, pure_bind]
      split <;> rfl
  unfold checkedModify
  rw [hupdate]
  rfl

/-- Write the container of a node with this place in the graph and this parent. -/
def Container.checkedRefresh (c : Container) (o : Objective) (dag : Dag)
    (parent : Option Neighbor) : Checked Container :=
  match c.kind with
  | .none => return c.stamped
  | kind =>
    if dag.joined then do
      let cost ← if dag.rank = o.rankIncrease then pure 0 else o.checkedPathCost parent
      return { c.stamped with object := metric kind (dag.rank = o.rankIncrease) cost }
    else return c.stamped

/-- What is advertised is written without a stop. -/
theorem Container.checkedRefresh_eq (c : Container) (o : Objective) (dag : Dag)
    (parent : Option Neighbor) :
    c.checkedRefresh o dag parent = pure (c.refresh o dag parent).1 := by
  unfold checkedRefresh refresh
  cases c.kind with
  | none => rfl
  | _ =>
    simp only [Objective.checkedPathCost_eq]
    by_cases hjoined : dag.joined = true
    · rw [if_pos hjoined, if_pos hjoined]
      by_cases hroot : dag.rank = o.rankIncrease
      · simp [hroot, metric]
      · simp [hroot, metric]
    · rw [if_neg hjoined, if_neg hjoined]

namespace Router

/-- Choose the parent anew. -/
def checkedReselect (r : Router) (t : NeighborTable) : Checked Router :=
  if r.isRoot then return r
  else do
    match ← r.objective.checkedSelect r.dag.parent t with
    | none => return { r with dag := { r.dag with parent := none, rank := Rank.infinite } }
    | some p =>
      let rank ← r.objective.checkedRankThrough p
      return { r with dag := { r.dag with parent := some p.address, rank } }

/-- Write what the node advertises. -/
def checkedRefresh (r : Router) (t : NeighborTable) : Checked Router := do
  let container ← r.container.checkedRefresh r.objective r.dag (r.parentEntry? t)
  return { r with container }

/-- A router chooses its parent without a stop, -/
theorem checkedReselect_eq (r : Router) (t : NeighborTable) :
    r.checkedReselect t = pure (r.reselect t).1 := by
  unfold checkedReselect reselect
  by_cases hroot : r.isRoot = true
  · rw [if_pos hroot, if_pos hroot]
  · rw [if_neg hroot, if_neg hroot, Objective.checkedSelect_eq, pure_bind]
    cases r.objective.select r.dag.parent t with
    | none => rfl
    | some p =>
      simp only [Objective.checkedRankThrough_eq]
      rfl

/-- and refreshes what it advertises. -/
theorem checkedRefresh_eq (r : Router) (t : NeighborTable) :
    r.checkedRefresh t = pure (r.refresh t).1 := by
  unfold checkedRefresh refresh
  rw [Container.checkedRefresh_eq, pure_bind]

end Router

end SlottedMesh
