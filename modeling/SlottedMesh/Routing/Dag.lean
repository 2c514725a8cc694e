import SlottedMesh.Routing.Neighbor

/-!
# Routing graphs

A node's place in a routing graph towards a root, and which of two graphs is the better one to be
in: the grounded one, then the one of higher preference, then the one that gives the lower rank.
-/

namespace SlottedMesh

/-- A node's place in a routing graph. -/
structure Dag where
  /-- The root reaches what the graph is for. -/
  grounded : Bool
  /-- How much the graph is preferred to others. -/
  preference : UInt8
  /-- The node's distance from the root. -/
  rank : UInt16
  /-- The node takes part in the graph. -/
  joined : Bool
  /-- The neighbour that the node sends to. -/
  parent : Option Address
deriving DecidableEq

namespace Dag

/-- No place in any graph. -/
def detached : Dag := ⟨false, 0, Rank.infinite, false, none⟩

instance : Inhabited Dag := ⟨detached⟩

/-- Whether `d` is the better graph; of two that are equally good it is not. -/
def isBetterThan (d e : Dag) : Bool :=
  if d.grounded ≠ e.grounded then d.grounded
  else if d.preference ≠ e.preference then d.preference > e.preference
  else d.rank < e.rank

/-- The better of two graphs, the second one if they are equally good. -/
def best (d e : Dag) : Dag := if d.isBetterThan e then d else e

end Dag

end SlottedMesh
