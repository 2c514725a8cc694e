import SlottedMesh.Cells.Lease
import SlottedMesh.Identity.Directory
import SlottedMesh.Routing.Neighbor

/-!
# Cells that follow the traffic

Each packet that is exchanged with a neighbour puts a link in the cell of the two, or renews it.
Leases that ran out are swept first, so that their links make room.  A change of the time source
moves the link on which the node listens for beacons.
-/

namespace SlottedMesh

/-- Who sent a packet to whom. -/
structure Packet where
  /-- The address of the node that sent it. -/
  sender : Address
  /-- The address of the node that it is for. -/
  receiver : Address
  /-- It serves routing alone; such packets never change the schedule. -/
  isControl : Bool
deriving DecidableEq

/-- The direction in which a cell is used. -/
inductive Direction where
  | tx
  | rx
deriving DecidableEq

/-- The lease after its cell was used in a direction. -/
def Link.Lease.stamp (lease : Link.Lease) (direction : Direction) (now : SlotNumber) : Link.Lease :=
  match direction with
  | .tx => { lease with lastTx := now }
  | .rx => { lease with lastRx := now }

namespace Planner

/-- Note in the lease at a cell that it was used: a link that was just made gets a lease, one with a
lease is stamped, and one without stays without. -/
def stampCell (cell : Cell) (isNew : Bool) (direction : Direction) (now : SlotNumber)
    (s : Schedule) : Schedule :=
  match s.link? cell.frame cell.timeslot with
  | none => s
  | some link =>
    if isNew then s.setLease cell.frame cell.timeslot (some (.fresh now))
    else match link.lease with
      | none => s
      | some lease =>
        s.setLease cell.frame cell.timeslot (some (lease.stamp direction now))

/-- Add options to the link that was found at a cell, or make one there.  Without a peer the link
keeps the one it has.  A link that would not change is not put again. -/
def putMerged (cell : Cell) (old : Option Link) (added : Link.Options) (peer : Option Link.Peer) :
    Edit Unit :=
  let options := old.elim added (·.options.union added)
  let peer := peer.getD (old.elim .unbound (·.peer))
  if old.map (fun link => (link.options, link.peer)) = some (options, peer) then pure ()
  else Edit.putLink cell options .normal peer

/-- Add options to the link at a cell, which is made if there is none, and note the use. -/
def merge (cell : Cell) (added : Link.Options) (peer : Option Link.Peer) (direction : Direction)
    (now : SlotNumber) : Edit Unit := do
  let old := (← get).link? cell.frame cell.timeslot
  putMerged cell old added peer
  modify (stampCell cell old.isNone direction now)

/-- The options of a link on which the node transmits to a neighbour. -/
def lentOptions (p : Planner) : Link.Options :=
  if p.plan.sharesLentCells then .txShared else .txOnly

/-- A packet was received in slot `now`.  Where senders own the cells, the node will listen in the
cell of the sender, if the packet was for a node and the sender has an index. -/
def received (p : Planner) (d : Directory) (packet : Packet) (now : SlotNumber) : Edit Unit :=
  if packet.isControl then pure ()
  else do
    modify fun s => (p.sweep now s).1
    match p.plan.ownership, d.idOf? packet.receiver, d.indexOf? packet.sender with
    | .sender, some _, some index =>
      let cell ← Edit.place (p.plan.cell? index)
      merge cell .rxOnly none .rx now
    | _, _, _ => pure ()

/-- The transmission of a packet came to its end in slot `now`.  If it was delivered to a node with
an index, the node will transmit to it in the cell of the one that owns it. -/
def sent (p : Planner) (d : Directory) (packet : Packet) (outcome : Outcome) (now : SlotNumber) :
    Edit Unit :=
  if packet.isControl then pure ()
  else do
    modify fun s => (p.sweep now s).1
    match d.indexOf? packet.receiver, outcome with
    | some index, .delivered =>
      let owner := match p.plan.ownership with
        | .sender => p.index
        | .receiver => index
      let cell ← Edit.place (p.plan.cell? owner)
      merge cell p.lentOptions (some (.unicast packet.receiver)) .tx now
    | _, _ => pure ()

/-- Where the node sends its own beacons, it neither starts nor stops to listen for others: do the
edit only in another slot. -/
def awayFrom (own timeslot : UInt16) (edit : Edit Unit) : Edit Unit :=
  if timeslot = own then pure () else edit

/-- Stop to listen for the beacons of the node with this index. -/
def muteBeacons (p : Planner) (own : UInt16) : Option UInt16 → Edit Unit
  | none => pure ()
  | some index => do
    let timeslot ← Edit.place (p.plan.beaconSlot? index)
    awayFrom own timeslot (Edit.removeLinkAt CellPlan.beaconFrame timeslot)

/-- Listen for the beacons of the node with this index. -/
def hearBeacons (p : Planner) (own : UInt16) : Option UInt16 → Edit Unit
  | none => pure ()
  | some index => do
    let timeslot ← Edit.place (p.plan.beaconSlot? index)
    awayFrom own timeslot (Edit.putLink ⟨CellPlan.beaconFrame, timeslot, CellPlan.beaconFrame⟩
      .rxOnly .advertisingOnly .unbound)

/-- Move the link on which the node listens for beacons from the slot of the old time source to that
of the new one.  Two sources of one index, or without any, leave the link where it is. -/
def followTimeSource (p : Planner) (d : Directory) (old new : Option Address) : Edit Unit :=
  let oldIndex := old.bind d.indexOf?
  let newIndex := new.bind d.indexOf?
  if oldIndex = newIndex then pure ()
  else do
    let own ← Edit.place (p.plan.beaconSlot? p.index)
    p.muteBeacons own oldIndex
    p.hearBeacons own newIndex

end Planner

end SlottedMesh
