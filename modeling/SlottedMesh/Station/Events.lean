import SlottedMesh.Station.Basic

/-!
# What happens to a station

The events of a node that is up: slots pass, neighbours advertise, packets are sent and received,
and the node joins or changes its time source.  Whatever bears on the choice of the parent is
followed by a new choice, and that by writing what the node advertises.
-/

namespace SlottedMesh.Station

/-! ## Routing -/

/-- Write what the node advertises. -/
def refresh (s : Station) : Station := { s with router := (s.router.refresh s.neighbors).1 }

/-- Choose the parent anew. -/
def reselect (s : Station) : Station :=
  refresh { s with router := (s.router.reselect s.neighbors).1 }

/-- Become the root. -/
def becomeRoot (s : Station) : Station := refresh { s with router := s.router.becomeRoot }

/-- The table after a neighbour advertised a rank and a path metric. -/
def noteAdvertised (o : Objective) (t : NeighborTable) (a : Address) (rank metric : UInt16) :
    NeighborTable :=
  match t.get? a with
  | some _ => t.modify a ({ · with rank, advertisedMetric := metric })
  | none => t.insert { o.newNeighbor a rank with advertisedMetric := metric }

/-- A neighbour advertised a rank and a path metric. -/
def heard (s : Station) (a : Address) (rank metric : UInt16) : Station :=
  reselect { s with neighbors := noteAdvertised s.router.objective s.neighbors a rank metric }

/-! ## Slots -/

/-- A slot begins.  Leases are swept when the sweep interval has passed. -/
def tick (s : Station) (now : SlotNumber) : Station :=
  let s := { s with now }
  if now.since s.lastSweep < s.sweepInterval.toNat then s
  else { (s.change (s.planner.sweep now)).1 with lastSweep := now }

/-- The node joins the network in this slot: leases start afresh. -/
def join (s : Station) (now : SlotNumber) : Station :=
  reselect { s with
    now
    lastSweep := now
    schedule := s.planner.renewAll now s.schedule
    router := s.router.join }

/-- The node follows the time of another neighbour, or of none.  It is noted even where the schedule
could not follow. -/
def followTimeSource (s : Station) (a : Option Address) : Station :=
  { s.edit (s.planner.followTimeSource s.directory s.timeSource a) with timeSource := a }

/-! ## Packets -/

/-- A transmission to a neighbour came to its end after so many attempts. -/
def transmitted (s : Station) (receiver : Address) (outcome : Outcome) (attempts : UInt16)
    (isControl : Bool) : Station :=
  let s := { s with
    neighbors := s.neighbors.modify receiver (s.router.objective.learn outcome attempts) }
  let packet : Packet := ⟨s.address, receiver, isControl⟩
  (s.edit (s.planner.sent s.directory packet outcome s.now)).reselect

/-- A packet was received. -/
def received (s : Station) (packet : Packet) : Station :=
  s.edit (s.planner.received s.directory packet s.now)

end SlottedMesh.Station
