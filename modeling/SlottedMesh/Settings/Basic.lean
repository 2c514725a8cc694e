import SlottedMesh.Cells.Plan
import SlottedMesh.Identity.Directory
import SlottedMesh.Routing.Container
import SlottedMesh.Schedule.Basic
import SlottedMesh.Time.Hopping

/-!
# Settings

All that can be set of a node.  Settings with which a node could not work are told by their
`problems`, in a fixed order of which only the first is reported.
-/

namespace SlottedMesh

/-- What can be set of a node's schedule. -/
structure ScheduleSettings where
  /-- How many slotframes there may be. -/
  maxFrames : Nat
  /-- How many links there may be. -/
  maxLinks : Nat
  /-- How long a slot lasts, in microseconds. -/
  slotLength : UInt32
  /-- The channels that the network hops through. -/
  channels : Array UInt8
deriving DecidableEq

/-- Which objective a node follows. -/
inductive Objective.Kind where
  | hopCount
  | deliveryRatio
deriving DecidableEq, Inhabited

/-- What can be set of a node's routing. -/
structure RoutingSettings where
  /-- The objective that the node follows. -/
  objective : Objective.Kind
  /-- What each hop adds to the rank at least. -/
  rankIncrease : UInt16
  /-- How much worse than the best link a link may be, where hops are counted. -/
  band : UInt16
  /-- How close two ranks are for the present parent to stay, where losses are counted. -/
  hysteresis : UInt16
  /-- What the node advertises. -/
  advertised : Container.Kind
deriving DecidableEq

/-- The objective with its parameters. -/
def RoutingSettings.toObjective (r : RoutingSettings) : Objective :=
  match r.objective with
  | .hopCount => .hopCount ⟨r.rankIncrease, r.band⟩
  | .deliveryRatio => .deliveryRatio ⟨r.rankIncrease, r.hysteresis⟩

/-- All that can be set of a node. -/
structure Settings where
  /-- The id of the node. -/
  nodeId : UInt16
  /-- Its schedule. -/
  schedule : ScheduleSettings
  /-- Its routing. -/
  routing : RoutingSettings
  /-- Its plan of cells. -/
  plan : CellPlan
  /-- The nodes of the deployment. -/
  directory : Directory
deriving DecidableEq

namespace Settings

/-- The settings of a schedule that is told nothing else. -/
def standardSchedule : ScheduleSettings :=
  ⟨Schedule.defaultMaxFrames, Schedule.defaultMaxLinks, 15000, HoppingSequence.defaultChannels⟩

/-- The settings of a routing that is told nothing else. -/
def standardRouting : RoutingSettings := ⟨.deliveryRatio, 1, 64, 0, .none⟩

/-- The settings of a node that is told nothing else. -/
def standard : Settings := ⟨1, standardSchedule, standardRouting, .standard, ⟨[], none⟩⟩

instance : Inhabited Settings := ⟨standard⟩

/-! ## Problems -/

/-- A length of the cell plan. -/
inductive Period where
  | beacon
  | shared
  | unicast
  | spill
deriving DecidableEq

/-- The setting of the length. -/
def Period.key : Period → String
  | .beacon => "orchestra.eb_period"
  | .shared => "orchestra.common_shared_period"
  | .unicast => "orchestra.unicast_period"
  | .spill => "orchestra.unicast_period2"

/-- Why a node could not work with its settings. -/
inductive Problem where
  /-- The node has the id that stands for all nodes. -/
  | broadcastId
  /-- Slots have no length. -/
  | zeroSlotLength
  /-- There is no channel to hop to. -/
  | noChannels
  /-- A slotframe has no length. -/
  | zeroPeriod (period : Period)
  /-- The schedule has room for fewer slotframes than the plan needs. -/
  | tooFewFrames (available needed : Nat)
  /-- A fixed link lies outside the unicast slotframe. -/
  | fixedLinkOutOfRange (timeslot period : UInt16)
  /-- The deployment has nodes, but not this one. -/
  | unlistedNode (id : UInt16)
deriving DecidableEq

/-- What is told about the problem. -/
def Problem.message : Problem → String
  | .broadcastId => "node.id must be non-zero (0 is the broadcast id)"
  | .zeroSlotLength => "schedule.slot_duration_us must be non-zero"
  | .noChannels => "schedule.hopping_sequence must not be empty"
  | .zeroPeriod period => period.key ++ " must be non-zero"
  | .tooFewFrames available needed =>
    "schedule.max_slotframes is " ++ toString available ++ " but orchestra needs "
      ++ toString needed ++ " slotframes"
  | .fixedLinkOutOfRange timeslot period =>
    "static link timeslot " ++ toString timeslot ++ " is outside the unicast slotframe (period "
      ++ toString period ++ ")"
  | .unlistedNode id => "node.id " ++ toString id ++ " is not listed in deployment.nodes"

/-- The slotframes that a plan needs. -/
def neededFrames (p : CellPlan) : Nat :=
  2 + (if p.sharedPeriod.isSome then 1 else 0) + (if p.spillPeriod.isSome then 1 else 0)

/-- The lengths of a plan. -/
def periods (p : CellPlan) : List (Period × Option UInt16) :=
  [(.beacon, some p.beaconPeriod), (.shared, p.sharedPeriod), (.unicast, some p.unicastPeriod),
    (.spill, p.spillPeriod)]

/-- The problem, if it is there. -/
def problemIf (there : Bool) (p : Problem) : List Problem := if there then [p] else []

/-- The problems of the settings, in the order in which they are looked for. -/
def problems (s : Settings) : List Problem :=
  problemIf (s.nodeId = 0) .broadcastId
    ++ problemIf (s.schedule.slotLength = 0) .zeroSlotLength
    ++ problemIf s.schedule.channels.isEmpty .noChannels
    ++ ((periods s.plan).filter (·.2 = some 0)).map (fun p => .zeroPeriod p.1)
    ++ problemIf (s.schedule.maxFrames < neededFrames s.plan)
      (.tooFewFrames s.schedule.maxFrames (neededFrames s.plan))
    ++ (s.plan.fixedLinks.filter (s.plan.unicastPeriod ≤ ·.timeslot)).map
      (fun l => .fixedLinkOutOfRange l.timeslot s.plan.unicastPeriod)
    ++ problemIf (!s.directory.nodes.isEmpty && s.directory.nodes.all (·.1 ≠ s.nodeId))
      (.unlistedNode s.nodeId)

/-- Refuse settings with problems, for the first of them. -/
def validate (s : Settings) : Except Problem Unit :=
  match s.problems with
  | [] => .ok ()
  | p :: _ => .error p

/-- The hopping sequence over the channels that are set. -/
def hoppingSequence (s : Settings) : Except TimingError HoppingSequence :=
  HoppingSequence.ofChannels s.schedule.channels

end Settings

end SlottedMesh
