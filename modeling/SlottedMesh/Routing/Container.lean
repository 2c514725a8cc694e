import SlottedMesh.Routing.Dag
import SlottedMesh.Routing.Objective

/-!
# Metric containers

What a node advertises of its path to the root: the expected transmissions, or how it is powered
with an estimate of the same cost.  The header is written even when the node takes part in no graph
and the advertised object has to stay as it is.
-/

namespace SlottedMesh

/-- Why a routing step is refused. -/
inductive RoutingError where
  /-- No neighbour has a way to the root. -/
  | noEligibleParent
  /-- The node takes part in no routing graph. -/
  | notJoined
deriving DecidableEq

/-- What is told about the refusal. -/
def RoutingError.message : RoutingError → String
  | .noEligibleParent => "no neighbor with a finite rank is eligible as parent"
  | .notJoined => "metric container update skipped: DAG not joined"

namespace Container

/-- What a node advertises. -/
inductive Kind where
  /-- Nothing. -/
  | none
  /-- The transmissions that a packet needs. -/
  | transmissions
  /-- The kind of its power supply. -/
  | energy
deriving DecidableEq, Inhabited

/-- The number that stands for the kind in a message. -/
def Kind.code : Kind → UInt8
  | .none => 0
  | .transmissions => 7
  | .energy => 2

/-- How a node is powered. -/
inductive Supply where
  | mains
  | battery
deriving DecidableEq

/-- The flags that stand for a power supply in a message: its number, shifted left by one. -/
def Supply.flags : Supply → UInt8
  | .mains => 0
  | .battery => 2

/-- An advertised metric. -/
inductive Object where
  /-- No metric. -/
  | empty
  /-- The transmissions that a packet needs, in units of 1/128. -/
  | transmissions (metric : UInt16)
  /-- The power supply and the path metric. -/
  | energy (flags : UInt8) (estimate : UInt16)
deriving DecidableEq, Inhabited

end Container

/-- What a node advertises of its path to the root. -/
structure Container where
  /-- What is to be advertised. -/
  kind : Container.Kind
  /-- The number of the kind when the header was last written. -/
  code : UInt8
  /-- The flags of the header. -/
  flags : UInt8
  /-- How metrics add up along the path. -/
  aggregation : UInt8
  /-- The precedence among several metrics. -/
  precedence : UInt8
  /-- The advertised metric. -/
  object : Container.Object
deriving DecidableEq

namespace Container

/-- A container of this kind that was never written. -/
def ofKind (kind : Kind) : Container := ⟨kind, 0, 0, 0, 0, .empty⟩

/-- The flag of the header that is always set: the metric may be partial. -/
def partialFlag : UInt8 := 8

/-- Write the header: the code of the kind and, if there is something to advertise, a metric that
may be partial and adds up along the path. -/
def stamped (c : Container) : Container :=
  match c.kind with
  | .none => { c with code := c.kind.code }
  | _ => { c with code := c.kind.code, flags := partialFlag, aggregation := 0, precedence := 0 }

/-- The metric of a node: the root has no path and is powered from the mains. -/
def metric (kind : Kind) (isRoot : Bool) (pathCost : UInt16) : Object :=
  let cost := if isRoot then 0 else pathCost
  match kind with
  | .none => .empty
  | .transmissions => .transmissions cost
  | .energy => .energy (if isRoot then Supply.mains else Supply.battery).flags cost

/-- Write the container of a node with this place in the graph and this parent. -/
def refresh (c : Container) (o : Objective) (dag : Dag) (parent : Option Neighbor) :
    Container × Except RoutingError Unit :=
  match c.kind with
  | .none => (c.stamped, .ok ())
  | kind =>
    if dag.joined then
      ({ c.stamped with object := metric kind (dag.rank = o.rankIncrease) (o.pathCost parent) },
        .ok ())
    else (c.stamped, .error .notJoined)

end Container

end SlottedMesh
