import SlottedMesh.Routing.Container

/-!
# Routers

A `Router` is the routing state of a node: its place in the graph, what it advertises, and its
objective.  The root is told by its rank alone.  A node that is not the root chooses its parent anew
from its neighbours whenever something is learnt about them.
-/

namespace SlottedMesh

/-- The routing state of a node. -/
structure Router where
  /-- The node's place in the routing graph. -/
  dag : Dag
  /-- What the node advertises. -/
  container : Container
  /-- What the node strives for. -/
  objective : Objective
deriving DecidableEq

namespace Router

/-- A router without a place in a graph. -/
def fresh (objective : Objective) (kind : Container.Kind) : Router :=
  ⟨.detached, .ofKind kind, objective⟩

/-- The rank that makes a node the root. -/
def rootRank (r : Router) : UInt16 := r.objective.rankIncrease

/-- Whether the node is the root. -/
def isRoot (r : Router) : Bool := r.dag.rank = r.rootRank

/-- Become the root of a grounded graph. -/
def becomeRoot (r : Router) : Router :=
  { r with dag := { r.dag with
      rank := r.rootRank, grounded := true, joined := true, parent := none } }

/-- Take part in the graph. -/
def join (r : Router) : Router := { r with dag := { r.dag with joined := true } }

/-- Take part in the graph no more; rank and parent are lost. -/
def leave (r : Router) : Router :=
  { r with dag := { r.dag with joined := false, rank := Rank.infinite, parent := none } }

/-- Choose the parent anew.  The root chooses none and stays as it is; a node that finds no parent
has none from then on and an infinite rank. -/
def reselect (r : Router) (t : NeighborTable) : Router × Except RoutingError (Option Address) :=
  if r.isRoot then (r, .ok none)
  else match r.objective.select r.dag.parent t with
    | none =>
      ({ r with dag := { r.dag with parent := none, rank := Rank.infinite } },
        .error .noEligibleParent)
    | some p =>
      ({ r with dag := { r.dag with
          parent := some p.address, rank := r.objective.rankThrough (some p) } },
        .ok (some p.address))

/-- The table entry of the node's parent. -/
def parentEntry? (r : Router) (t : NeighborTable) : Option Neighbor := r.dag.parent.bind t.get?

/-- Write what the node advertises. -/
def refresh (r : Router) (t : NeighborTable) : Router × Except RoutingError Unit :=
  let (container, result) := r.container.refresh r.objective r.dag (r.parentEntry? t)
  ({ r with container }, result)

end Router

end SlottedMesh
