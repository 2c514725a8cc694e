import SlottedMesh.Identity.Address
import SlottedMesh.Time.SlotNumber

/-!
# Links

A link is one scheduled cell: a timeslot of a slotframe and a channel offset, with what the node
does there (`Options`), the traffic it carries (`Kind`) and the neighbour it is kept for (`Peer`).
A link that is only lent to a neighbour has a `Lease`, which says when each direction was last used.
-/

namespace SlottedMesh.Link

/-! ## Options -/

/-- What a node does in a cell. -/
structure Options where
  /-- The node may transmit. -/
  tx : Bool
  /-- The node listens. -/
  rx : Bool
  /-- Others may transmit too, so transmissions back off. -/
  shared : Bool
deriving DecidableEq, Inhabited

namespace Options

/-- Nothing is done in the cell. -/
def none : Options := ⟨false, false, false⟩

/-- Transmission only. -/
def txOnly : Options := ⟨true, false, false⟩

/-- Reception only. -/
def rxOnly : Options := ⟨false, true, false⟩

/-- Transmission in a cell that others use too. -/
def txShared : Options := ⟨true, false, true⟩

/-- Transmission and reception in a cell that others use too. -/
def all : Options := ⟨true, true, true⟩

/-- The options that are in either. -/
def union (x y : Options) : Options := ⟨x.tx || y.tx, x.rx || y.rx, x.shared || y.shared⟩

/-- The options of `x` that are not in `y`. -/
def without (x y : Options) : Options := ⟨x.tx && !y.tx, x.rx && !y.rx, x.shared && !y.shared⟩

/-- Whether every option of `y` is in `x`. -/
def contains (x y : Options) : Bool := y.without x = none

/-- Whether some option is in both. -/
def meets (x y : Options) : Bool := x.tx && y.tx || x.rx && y.rx || x.shared && y.shared

/-- Whether no option is set. -/
def isNone (x : Options) : Bool := x = none

/-- The options as a bit set: 1 to transmit, 2 to listen, 4 for a shared cell. -/
def bits (x : Options) : UInt8 := (cond x.tx 1 0) ||| (cond x.rx 2 0) ||| (cond x.shared 4 0)

/-- The options of a bit set; other bits say nothing. -/
def ofBits (b : UInt8) : Options := ⟨b &&& 1 ≠ 0, b &&& 2 ≠ 0, b &&& 4 ≠ 0⟩

/-- The names of the options that are set. -/
def names (x : Options) : List String :=
  cond x.tx ["TX"] [] ++ cond x.rx ["RX"] [] ++ cond x.shared ["SHARED"] []

/-- The options in words, with a bar between them. -/
def text (x : Options) : String :=
  if x.isNone then "NONE" else "|".intercalate x.names

/-- Options are read back from their bits. -/
@[simp] theorem ofBits_bits (x : Options) : ofBits x.bits = x := by
  obtain ⟨_ | _, _ | _, _ | _⟩ := x <;> rfl

end Options

/-! ## Traffic and neighbour -/

/-- The traffic that a link carries. -/
inductive Kind where
  /-- Data alone. -/
  | normal
  /-- Data and beacons. -/
  | advertising
  /-- Beacons alone. -/
  | advertisingOnly
deriving DecidableEq, Inhabited

/-- The neighbour that a link is kept for. -/
inductive Peer where
  /-- No neighbour in particular. -/
  | unbound
  /-- All neighbours. -/
  | broadcast
  /-- The neighbour with this address. -/
  | unicast (address : Address)
deriving DecidableEq, Inhabited

/-- The neighbour in words. -/
def Peer.text : Peer → String
  | .unbound => "none"
  | .broadcast => "broadcast"
  | .unicast address => address.text

/-- When each direction of a lent cell was last used. -/
structure Lease where
  /-- The slot of the last use for transmission. -/
  lastTx : SlotNumber
  /-- The slot of the last use for reception. -/
  lastRx : SlotNumber
deriving DecidableEq

/-- A lease that begins now: both directions count as just used. -/
def Lease.fresh (now : SlotNumber) : Lease := ⟨now, now⟩

/-- What is set of a link when it is put in the schedule or changed. -/
structure Attributes where
  /-- What the node does in the cell. -/
  options : Options
  /-- The traffic it carries. -/
  kind : Kind
  /-- The neighbour it is kept for. -/
  peer : Peer
  /-- Where in the hopping sequence it starts. -/
  channelOffset : UInt16
deriving DecidableEq

end Link

/-- A scheduled cell. -/
structure Link extends Link.Attributes where
  /-- The number by which this link is told from all others; it stays when attributes change. -/
  handle : UInt32
  /-- The slotframe that the link is in. -/
  frame : UInt16
  /-- The timeslot that the link takes. -/
  timeslot : UInt16
  /-- The lease, if the link is only lent. -/
  lease : Option Link.Lease
deriving DecidableEq

/-- Whether the link is kept for the neighbour with this address. -/
def Link.isFor (l : Link) (a : Address) : Bool := l.peer = .unicast a

end SlottedMesh
