import SlottedMesh.Identity.Address

/-!
# The directory of nodes

Every node has an address, an id and a dense index; the index decides which cells the node gets.  A
`Directory` is the table of a deployment, in which a node's place is its index before shuffling.
Where the table is empty, addresses are those of a simulation: the id of a node is the last byte of
its address and is also its index.
-/

namespace SlottedMesh

/-- Spreads neighbouring indices apart: `index * multiplier` modulo `modulus`. -/
structure Shuffle where
  /-- What an index is multiplied by. -/
  multiplier : UInt16
  /-- The number of indices; zero leaves indices as they are. -/
  modulus : UInt16
deriving DecidableEq

/-- The index that takes the place of `index`. -/
def Shuffle.apply (s : Shuffle) (index : UInt16) : UInt16 :=
  if s.modulus = 0 then index
  else (index.toUInt32 * s.multiplier.toUInt32 % s.modulus.toUInt32).toUInt16

/-- The nodes of a deployment, in order, and the shuffle of their indices. -/
structure Directory where
  /-- Id and address of each node; a node's place here is its index before shuffling. -/
  nodes : List (UInt16 × Address)
  /-- The shuffle, if there is one. -/
  shuffle : Option Shuffle
deriving DecidableEq

namespace Directory

/-- The index that stands for a place of the table. -/
def shuffled (d : Directory) (raw : UInt16) : UInt16 :=
  match d.shuffle with
  | some s => s.apply raw
  | none => raw

/-- The address of a node id; of several entries with one id the first counts. -/
def addressOf? (d : Directory) (id : UInt16) : Option Address :=
  match d.nodes with
  | [] => if id = 0 ∨ 256 ≤ id.toNat then none else some (.ofLastByte id.toUInt8)
  | nodes => (nodes.find? (·.1 = id)).map (·.2)

/-- The id of an address.  Short addresses tell the nodes of a table apart, and the null address
belongs to no node. -/
def idOf? (d : Directory) (a : Address) : Option UInt16 :=
  if a.isNull then none
  else match d.nodes with
    | [] => if a.lastByte = 0 then none else some a.lastByte.toUInt16
    | nodes => (nodes.find? (·.2.short = a.short)).map (·.1)

/-- The index of a node id.  A place beyond the sixteen-bit range has none. -/
def indexOfId? (d : Directory) (id : UInt16) : Option UInt16 :=
  match d.nodes with
  | [] => some (d.shuffled id)
  | nodes => (nodes.findIdx? (·.1 = id)).bind fun place =>
      if place < UInt16.size then some (d.shuffled (.ofNat place)) else none

/-- The index of an address, by way of its id. -/
def indexOf? (d : Directory) (a : Address) : Option UInt16 :=
  (d.idOf? a).bind d.indexOfId?

end Directory

end SlottedMesh
