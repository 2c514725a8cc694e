import SlottedMesh.Routing.Least
import SlottedMesh.Routing.Neighbor

/-!
# Hop counting over expected transmissions

Under this objective the link metric is a moving average of the transmissions that a packet needs,
in units of 1/128, and the rank counts hops.  The parent is chosen in two passes: the first finds
the best link, the second the lowest rank among the links that are nearly as good.
-/

namespace SlottedMesh

/-- The hop-counting objective. -/
structure HopCount where
  /-- What each hop adds to the rank. -/
  rankIncrease : UInt16
  /-- How much worse than the best link a link may be to be considered. -/
  band : UInt16
deriving DecidableEq

namespace HopCount

/-- One transmission, in the units of the metric. -/
def unit : Nat := 128

/-- How many transmissions a packet counts for that was never acknowledged. -/
def penalty : Nat := 16

/-- The metric of a link that was not used yet: one transmission for each packet. -/
def initialMetric : UInt16 := 128

/-- The part of a hundred that the old average keeps; the first samples weigh more. -/
def weight (txCount : UInt16) : Nat := if txCount < 2 then 70 else 90

/-- The transmissions that one outcome speaks of. -/
def sample (outcome : Outcome) (attempts : UInt16) : Nat :=
  match outcome with
  | .unacknowledged => penalty * unit
  | _ => attempts.toNat * unit

/-- The average after one outcome. -/
def nextMetric (n : Neighbor) (outcome : Outcome) (attempts : UInt16) : UInt16 :=
  let keep := weight n.txCount
  saturate16 ((n.linkMetric.toNat * keep + sample outcome attempts * (100 - keep)) / 100)

/-- The rank of a node with this parent. -/
def rankThrough (o : HopCount) (parent : Neighbor) : UInt16 :=
  saturate16 (parent.rank.toNat + o.rankIncrease.toNat)

/-- Choose from candidates that each stand for a neighbour: of those with a finite rank, first the
earliest with the best link; then, of it and all whose metric is less than `band` above its own, the
earliest with the lowest rank, with the best link considered first. -/
def selectBy {α : Type} (neighbor : α → Neighbor) (band : UInt16) (candidates : List α) :
    Option α :=
  let finite := candidates.filter fun c => (neighbor c).isFinite
  (least? (fun c => (neighbor c).linkMetric.toNat) finite).map fun best =>
    let limit := (neighbor best).linkMetric.toNat + band.toNat
    leastFrom (fun c => (neighbor c).rank.toNat) best
      (finite.filter fun c => (neighbor c).linkMetric.toNat < limit)

/-- Choose the parent among these neighbours. -/
def select (o : HopCount) (candidates : List Neighbor) : Option Neighbor :=
  selectBy id o.band candidates

end HopCount

end SlottedMesh
