import SlottedMesh.Identity.Address

/-!
# Neighbours

What a node knows of the nodes it hears, each of which may become its parent.  The table lists the
neighbours in the order in which they were first heard of, which is the order in which they are
considered.
-/

namespace SlottedMesh

/-- The number as sixteen bits, or the most that sixteen bits can hold. -/
def saturate16 (n : Nat) : UInt16 := .ofNat (min n (UInt16.size - 1))

/-- The number, cut to what sixteen bits can hold. -/
@[simp] theorem toNat_saturate16 (n : Nat) : (saturate16 n).toNat = min n (UInt16.size - 1) := by
  rw [saturate16, UInt16.toNat_ofNat',
    Nat.mod_eq_of_lt (Nat.lt_of_le_of_lt (Nat.min_le_right _ _) (by decide))]

namespace Rank

/-- The rank of a node that has no way to the root. -/
def infinite : UInt16 := 0xFFFF

end Rank

/-- What became of a transmission, after all its attempts. -/
inductive Outcome where
  /-- It was acknowledged. -/
  | delivered
  /-- It was never acknowledged. -/
  | unacknowledged
  /-- It failed before it could tell anything about the link. -/
  | other
deriving DecidableEq

/-- A node that is heard, with what is known of it and of the link to it. -/
structure Neighbor where
  /-- Its address. -/
  address : Address
  /-- The rank that it advertises. -/
  rank : UInt16
  /-- The quality of the link, in the units of the node's objective. -/
  linkMetric : UInt16
  /-- How many attempts to transmit to it were counted. -/
  txCount : UInt16
  /-- The path metric that it advertises. -/
  advertisedMetric : UInt16
deriving DecidableEq

/-- Whether the neighbour has a way to the root. -/
def Neighbor.isFinite (n : Neighbor) : Bool := n.rank ≠ Rank.infinite

/-- The neighbours of a node, in the order in which they were first heard of. -/
structure NeighborTable where
  /-- The entries in that order. -/
  entries : List Neighbor
deriving DecidableEq

namespace NeighborTable

/-- The table without entries. -/
def empty : NeighborTable := ⟨[]⟩

/-- The entry of an address. -/
def get? (t : NeighborTable) (a : Address) : Option Neighbor := t.entries.find? (·.address = a)

/-- Change the first entry of a list that has the address `a`. -/
def updateFirst (a : Address) (f : Neighbor → Neighbor) : List Neighbor → List Neighbor
  | [] => []
  | n :: ns => if n.address = a then f n :: ns else n :: updateFirst a f ns

/-- Change the entry of an address, if there is one. -/
def modify (t : NeighborTable) (a : Address) (f : Neighbor → Neighbor) : NeighborTable :=
  ⟨updateFirst a f t.entries⟩

/-- Put an entry in the place of the one with its address, or else at the end. -/
def insert (t : NeighborTable) (n : Neighbor) : NeighborTable :=
  match t.get? n.address with
  | some _ => t.modify n.address fun _ => n
  | none => ⟨t.entries ++ [n]⟩

/-- The neighbours that have a way to the root, in table order. -/
def finite (t : NeighborTable) : List Neighbor := t.entries.filter (·.isFinite)

end NeighborTable

end SlottedMesh
