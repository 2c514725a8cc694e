import SlottedMesh.Cells.Traffic
import SlottedMesh.Radio.Gate
import SlottedMesh.Routing.Router
import SlottedMesh.Settings.Basic

/-!
# Stations

A `Station` is a node that is up: its schedule behind the radio gate, its routing state, its
neighbours and the slot it is in.  It comes up from settings that make sense for a node with an
address, if the first layout of cells fits the schedule.
-/

namespace SlottedMesh

/-- A node that is up. -/
structure Station where
  /-- The settings it came up with. -/
  settings : Settings
  /-- The gate between the schedule and the radio. -/
  gate : Gate
  /-- The slotframes and links. -/
  schedule : Schedule
  /-- The channels that links hop through. -/
  hopping : HoppingSequence
  /-- What decides on cells. -/
  planner : Planner
  /-- The routing state. -/
  router : Router
  /-- The neighbours that were heard. -/
  neighbors : NeighborTable
  /-- The node's own address. -/
  address : Address
  /-- The neighbour whose time the node follows. -/
  timeSource : Option Address
  /-- The slot that the node is in. -/
  now : SlotNumber
  /-- The slot in which leases were last swept. -/
  lastSweep : SlotNumber

/-- Why a node does not come up. -/
inductive BringUpError where
  /-- The settings have a problem. -/
  | problem (p : Settings.Problem)
  /-- The id of the node has no address. -/
  | noAddress (id : UInt16)
  /-- The id of the node has no index. -/
  | noIndex (id : UInt16)
  /-- The lifetime of leases cannot be counted in slots. -/
  | lifetime (reason : TimingError)
  /-- The channels are no hopping sequence. -/
  | hopping (reason : TimingError)
  /-- The first layout of cells is refused. -/
  | layout (reason : PlannerError)
deriving DecidableEq

/-- What is told about a planner that cannot go on. -/
def PlannerError.message : PlannerError → String
  | .refused reason => reason.message
  | .zeroPeriod => "an index has no place in a period of length 0"

/-- What is told about a node that does not come up, the widest context first. -/
def BringUpError.message : BringUpError → String
  | .problem p => p.message
  | .noAddress id => "node id " ++ toString id ++ " has no link-layer address"
  | .noIndex id => "node id " ++ toString id ++ " has no index"
  | .lifetime reason => reason.message
  | .hopping reason => "invalid hopping sequence: " ++ reason.message
  | .layout reason => "orchestra layout does not fit the schedule: " ++ reason.message

namespace Station

/-- The nodes of the deployment. -/
def directory (s : Station) : Directory := s.settings.directory

/-- How many slots lie between sweeps: a quarter of the lifetime of leases, but one at least. -/
def sweepInterval (s : Station) : UInt32 := max 1 (s.planner.lifetime / 4)

/-- The value of an option, or an error. -/
def orRefuse {ε α : Type} (e : ε) : Option α → Except ε α
  | some x => .ok x
  | none => .error e

/-- Bring a node up whose radio has this driver. -/
def bringUp (settings : Settings) (driver : Gate.Driver) : Except BringUpError Station := do
  settings.validate.mapError .problem
  let address ← orRefuse (.noAddress settings.nodeId)
    (settings.directory.addressOf? settings.nodeId)
  let index ← orRefuse (.noIndex settings.nodeId) (settings.directory.indexOfId? settings.nodeId)
  let planner ← (Planner.of? settings.plan index settings.schedule.slotLength).mapError .lifetime
  let hopping ← settings.hoppingSequence.mapError .hopping
  let gate := (Gate.ofDriver driver).acquire
  let (schedule, result) :=
    planner.layOut.perform (.empty settings.schedule.maxFrames settings.schedule.maxLinks)
  result.mapError .layout
  return { settings, gate := gate.release, schedule, hopping, planner
           router := .fresh settings.routing.toObjective settings.routing.advertised
           neighbors := .empty, address, timeSource := none, now := .zero, lastSweep := .zero }

/-- Take the node down: the schedule and all that is known of neighbours are lost, the settings are
not. -/
def takeDown (s : Station) : Station :=
  { s with
    schedule := s.schedule.clear
    gate := s.gate.acquire.release
    neighbors := .empty
    router := s.router.leave }

/-! ## The schedule behind the gate -/

/-- Change the schedule while it is held. -/
def change {α : Type} (s : Station) (f : Schedule → Schedule × α) : Station × α :=
  let gate := s.gate.acquire
  let (schedule, result) := f s.schedule
  ({ s with schedule, gate := gate.release }, result)

/-- Carry out an update of the schedule while it is held. -/
def operate {α : Type} (s : Station) (u : Update α) : Station × Except ScheduleError α :=
  s.change u.perform

/-- Carry out an edit of the planner while the schedule is held.  What was done of an edit that
stops half-way stays done, and nobody is told. -/
def edit (s : Station) (e : Edit Unit) : Station := (s.change e.perform).1

/-- Put a link in the schedule; the result is its handle. -/
def putLink (s : Station) (frame timeslot : UInt16) (attributes : Link.Attributes) :
    Station × Except ScheduleError UInt32 :=
  let (s, result) := s.operate (.putLink frame timeslot attributes)
  (s, result.map (·.handle))

/-- Take out what is at a timeslot. -/
def removeLinkAt (s : Station) (frame timeslot : UInt16) :
    Station × Except ScheduleError (Option Link) :=
  s.operate (.removeLinkAt frame timeslot)

/-- The links that are on now, each with the id of its slotframe. -/
def currentLinks (s : Station) : List (UInt16 × Link) := s.schedule.current s.now

/-- The channel that a link takes now. -/
def channelOf (s : Station) (link : Link) : UInt8 := s.hopping.channelAt s.now link.channelOffset

/-- Make a call at the radio gate. -/
def callGate (s : Station) (c : Gate.Call) : Station := { s with gate := s.gate.call c }

/-- Switch the radio now, or when the schedule is held no more. -/
def requestRadio (s : Station) (r : RadioRequest) : Station := s.callGate (.request r)

end Station

end SlottedMesh
