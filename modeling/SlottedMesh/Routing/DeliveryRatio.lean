import SlottedMesh.Routing.Neighbor

/-!
# Delivery ratios

Under this objective the link metric is the part of all attempts that are delivered, as a fraction
of `one`, and the rank is the part of packets that are lost on the way to the root, though never
less than the hop count.  Of two parents the one that gives the lower rank is preferred, unless one
of them is the present parent and the two ranks are close.
-/

namespace SlottedMesh

/-- The delivery-ratio objective. -/
structure DeliveryRatio where
  /-- What each hop adds to the rank at least. -/
  rankIncrease : UInt16
  /-- How close two ranks are for the present parent to stay. -/
  hysteresis : UInt16
deriving DecidableEq

namespace DeliveryRatio

/-- The denominator of ratios while they are computed with. -/
def base : Nat := UInt16.size

/-- The largest ratio that is kept: everything is delivered. -/
def one : Nat := base - 1

/-- The metric of a link that was not used yet: 98 in a hundred are delivered. -/
def initialMetric : UInt16 := 64256

/-- The expected transmissions at a delivery ratio, in units of 1/128.  A link that delivers nothing
has no such number and counts as zero. -/
def toTransmissions (ratio : UInt16) : Nat :=
  if ratio = 0 then 0 else 128 * one / ratio.toNat

/-- The ratio after an attempt that failed. -/
def afterFailure (ratio : Nat) : Nat := ratio * 98 / 100

/-- The ratio after an attempt that succeeded. -/
def afterSuccess (ratio : Nat) : Nat := (ratio * 98 + one * 2) / 100

/-- The ratio after one outcome: all attempts but the last one failed. -/
def nextMetric (n : Neighbor) (outcome : Outcome) (attempts : UInt16) : UInt16 :=
  let before := Nat.repeat afterFailure (attempts.toNat - 1) n.linkMetric.toNat
  saturate16 (match outcome with
    | .unacknowledged => afterFailure before
    | _ => afterSuccess before)

/-- The chance, as a fraction of `base`, that four attempts in a row fail. -/
def lossRate (metric : UInt16) : Nat :=
  Nat.repeat (fun rate => rate * (base - metric.toNat) / base) 4 base

/-- The part of packets lost on the way to the root over this parent, as a fraction of `one`. -/
def pathLoss (parent : Neighbor) : Nat :=
  let delivered := one - lossRate parent.linkMetric
  one - (base / 2 + (base - parent.rank.toNat) * delivered) / base

/-- The rank of a node with this parent. -/
def rankThrough (o : DeliveryRatio) (parent : Neighbor) : UInt16 :=
  saturate16 (max (pathLoss parent) (parent.rank.toNat + o.rankIncrease.toNat))

/-- Whether the ranks over two parents differ by less than the hysteresis. -/
def close (o : DeliveryRatio) (p q : Neighbor) : Bool :=
  (o.rankThrough p).toNat < (o.rankThrough q).toNat + o.hysteresis.toNat ∧
    (o.rankThrough q).toNat < (o.rankThrough p).toNat + o.hysteresis.toNat

/-- Whether `p` is preferred to `q` by a node whose present parent has the address `present`. -/
def prefers (o : DeliveryRatio) (present : Option Address) (p q : Neighbor) : Bool :=
  if o.close p q ∧ present = some p.address then true
  else if o.close p q ∧ present = some q.address then false
  else o.rankThrough p < o.rankThrough q

/-- Choose the parent among these neighbours: each in turn is compared with the best so far, which
only stays if it is preferred. -/
def select (o : DeliveryRatio) (present : Option Address) : List Neighbor → Option Neighbor
  | [] => none
  | n :: ns => some (ns.foldl (fun best m => if o.prefers present best m then best else m) n)

end DeliveryRatio

end SlottedMesh
