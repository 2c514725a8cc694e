import SlottedMesh.Routing.DeliveryRatio
import SlottedMesh.Routing.HopCount

/-!
# Routing objectives

What a node strives for when it chooses its parent.  An objective rates links by the outcomes of
transmissions, gives the rank that a parent would bring and the cost of the path over it.
-/

namespace SlottedMesh

/-- What a node strives for when it chooses its parent. -/
inductive Objective where
  /-- Few hops over good links. -/
  | hopCount (o : HopCount)
  /-- Few losses on the whole path. -/
  | deliveryRatio (o : DeliveryRatio)
deriving DecidableEq

namespace Objective

/-- The code under which either objective is advertised. -/
def codePoint : UInt16 := 1

/-- What each hop adds to the rank at least; it is also the rank of the root. -/
def rankIncrease : Objective → UInt16
  | .hopCount o => o.rankIncrease
  | .deliveryRatio o => o.rankIncrease

/-- The metric of a link that was not used yet. -/
def initialMetric : Objective → UInt16
  | .hopCount _ => HopCount.initialMetric
  | .deliveryRatio _ => DeliveryRatio.initialMetric

/-- The entry of a neighbour that was just heard for the first time. -/
def newNeighbor (o : Objective) (address : Address) (rank : UInt16) : Neighbor :=
  ⟨address, rank, o.initialMetric, 0, 0⟩

/-- What is known of a neighbour after a transmission to it.  The metric is computed with the count
of attempts before this transmission; outcomes that say nothing about the link change nothing. -/
def learn (o : Objective) (outcome : Outcome) (attempts : UInt16) (n : Neighbor) : Neighbor :=
  match outcome with
  | .other => n
  | _ =>
    { n with
      linkMetric := match o with
        | .hopCount _ => HopCount.nextMetric n outcome attempts
        | .deliveryRatio _ => DeliveryRatio.nextMetric n outcome attempts
      txCount := saturate16 (n.txCount.toNat + attempts.toNat) }

/-- The rank of a node with this parent; without a parent it is infinite. -/
def rankThrough (o : Objective) (parent : Option Neighbor) : UInt16 :=
  match parent with
  | none => Rank.infinite
  | some p => match o with
    | .hopCount o => o.rankThrough p
    | .deliveryRatio o => o.rankThrough p

/-- The transmissions that the link to a neighbour costs, in units of 1/128. -/
def linkCost (o : Objective) (n : Neighbor) : Nat :=
  match o with
  | .hopCount _ => n.linkMetric.toNat
  | .deliveryRatio _ => DeliveryRatio.toTransmissions n.linkMetric

/-- The cost of a path that does not exist: a hundred transmissions. -/
def noPathCost : UInt16 := 100 * 128

/-- The transmissions that a packet costs on the way to the root over this parent, in units of
1/128. -/
def pathCost (o : Objective) (parent : Option Neighbor) : UInt16 :=
  match parent with
  | none => noPathCost
  | some p => saturate16 (p.advertisedMetric.toNat + o.linkCost p)

/-- Whether `p` is preferred to `q`, where the objective compares parents two by two. -/
def prefers? (o : Objective) (present : Option Address) (p q : Neighbor) : Option Bool :=
  match o with
  | .hopCount _ => none
  | .deliveryRatio o => some (o.prefers present p q)

/-- The parent that a node with the present parent `present` chooses from its neighbours. -/
def select (o : Objective) (present : Option Address) (t : NeighborTable) : Option Neighbor :=
  match o with
  | .hopCount o => o.select t.entries
  | .deliveryRatio o => o.select present t.finite

end Objective

end SlottedMesh
