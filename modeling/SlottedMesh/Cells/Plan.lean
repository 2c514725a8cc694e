import SlottedMesh.Time.Interval

/-!
# Cell plans

Nodes that share a plan find their common cells without negotiation: a node's index alone says where
it sends its beacons and where its unicast cell lies.  A plan has up to four slotframes, and the
links of a slotframe take its id as their channel offset.
-/

namespace SlottedMesh

/-- Who owns a unicast cell. -/
inductive Ownership where
  /-- Each node transmits in its own cell, and its neighbours listen there. -/
  | sender
  /-- Each node listens in its own cell, and its neighbours transmit there. -/
  | receiver
deriving DecidableEq, Inhabited

/-- A cell that two nodes share from the start. -/
structure FixedLink where
  /-- The index of the node that transmits. -/
  txIndex : UInt16
  /-- The index of the node that listens. -/
  rxIndex : UInt16
  /-- The timeslot of the unicast slotframe. -/
  timeslot : UInt16
deriving DecidableEq

/-- How indices are laid out in cells. -/
structure CellPlan where
  /-- Who owns a unicast cell. -/
  ownership : Ownership
  /-- The length of the beacon slotframe. -/
  beaconPeriod : UInt16
  /-- The length of the slotframe with the cell that all nodes share, if there is one. -/
  sharedPeriod : Option UInt16
  /-- The length of the unicast slotframe. -/
  unicastPeriod : UInt16
  /-- The length of a second unicast slotframe, for the indices that do not fit into the first. -/
  spillPeriod : Option UInt16
  /-- Lent cells for transmission are shared with others. -/
  sharesLentCells : Bool
  /-- How long a lent cell is kept after its last use. -/
  leaseLifetime : Interval
  /-- The cells that are set up from the start. -/
  fixedLinks : List FixedLink
deriving DecidableEq

/-- A place in the schedule. -/
structure Cell where
  /-- The slotframe. -/
  frame : UInt16
  /-- The timeslot of the slotframe. -/
  timeslot : UInt16
  /-- The channel offset of the link there. -/
  channelOffset : UInt16
deriving DecidableEq

namespace CellPlan

/-- The id of the slotframe for beacons. -/
def beaconFrame : UInt16 := 0

/-- The id of the slotframe with the cell that all nodes share. -/
def sharedFrame : UInt16 := 1

/-- The id of the slotframe for unicast traffic. -/
def unicastFrame : UInt16 := 2

/-- The id of the slotframe for the indices that do not fit into the first one. -/
def spillFrame : UInt16 := 3

/-- The lifetime of leases unless it is set otherwise: two minutes. -/
def defaultLeaseLifetime : Interval := .ofSeconds 120

/-- The plan of a node that is told nothing else. -/
def standard : CellPlan :=
  { ownership := .sender, beaconPeriod := 397, sharedPeriod := some 31, unicastPeriod := 253,
    spillPeriod := none, sharesLentCells := false, leaseLifetime := defaultLeaseLifetime,
    fixedLinks := [] }

instance : Inhabited CellPlan := ⟨standard⟩

/-- The slotframes that can hold lent cells. -/
def unicastFrames (p : CellPlan) : List UInt16 :=
  match p.spillPeriod with
  | none => [unicastFrame]
  | some _ => [unicastFrame, spillFrame]

/-- The number wrapped into a period; there is no such slot in a period of no length. -/
def wrap? (index period : UInt16) : Option UInt16 :=
  if period = 0 then none else some (index % period)

/-- The timeslot in which the node with this index sends its beacons. -/
def beaconSlot? (p : CellPlan) (index : UInt16) : Option UInt16 := wrap? index p.beaconPeriod

/-- The unicast cell of the node with this index.  With a second slotframe, the indices that do not
fit into the first go there; without one, indices wrap. -/
def cell? (p : CellPlan) (index : UInt16) : Option Cell :=
  match p.spillPeriod with
  | none => (wrap? index p.unicastPeriod).map (⟨unicastFrame, ·, unicastFrame⟩)
  | some spill =>
    if p.unicastPeriod ≤ index then
      (wrap? (index - p.unicastPeriod) spill).map (⟨spillFrame, ·, spillFrame⟩)
    else some ⟨unicastFrame, index, unicastFrame⟩

end CellPlan

end SlottedMesh
