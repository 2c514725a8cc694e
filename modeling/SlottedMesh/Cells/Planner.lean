import SlottedMesh.Cells.Plan
import SlottedMesh.Schedule.Update

/-!
# Planners

A `Planner` is a cell plan as one node follows it.  What it does to the schedule is an `Edit`: it
goes on from step to step and stops at the first step that is refused, and what was done until then
stays done.
-/

namespace SlottedMesh

/-- Why a planner cannot go on. -/
inductive PlannerError where
  /-- The schedule refuses a step. -/
  | refused (reason : ScheduleError)
  /-- An index cannot be laid out in a period of no length. -/
  | zeroPeriod
deriving DecidableEq

/-- A change of the schedule that may stop half-way. -/
abbrev Edit := Change PlannerError

namespace Edit

/-- One update of the schedule. -/
def ofUpdate {α : Type} (u : Update α) : Edit α := u.adaptExcept .refused

/-- Make a slotframe. -/
def addFrame (id length : UInt16) : Edit Unit := do
  let _ ← ofUpdate (.addFrame id length)

/-- Put a link in a cell. -/
def putLink (cell : Cell) (options : Link.Options) (kind : Link.Kind) (peer : Link.Peer) :
    Edit Unit := do
  let _ ← ofUpdate
    (.putLink cell.frame cell.timeslot ⟨options, kind, peer, cell.channelOffset⟩)

/-- Take out what is at a timeslot. -/
def removeLinkAt (frame timeslot : UInt16) : Edit Unit := do
  let _ ← ofUpdate (.removeLinkAt frame timeslot)

/-- A place that only exists if its period has a length. -/
def place {α : Type} : Option α → Edit α
  | some x => pure x
  | none => throw .zeroPeriod

/-! ### What an edit performs -/

/-- An update either goes on to a new schedule or stops the edit with the schedule as it was. -/
theorem perform_ofUpdate {α : Type} {u : Update α} (h : u.Atomic) (s : Schedule) :
    (ofUpdate u).perform s = match u.outcome s with
      | .ok (s', x) => (s', .ok x)
      | .error e => (s, .error (.refused e)) := by
  have hlift : (ofUpdate u).perform s =
      ((u.perform s).1, (u.perform s).2.mapError .refused) := by
    simp only [ofUpdate, Change.perform, EStateM.adaptExcept]
    cases u s <;> rfl
  rw [hlift, h.perform_eq]
  rcases u.outcome s with e | ⟨s', x⟩ <;> rfl

/-- A slotframe is made, or the edit stops with the schedule as it was. -/
theorem perform_addFrame (id length : UInt16) (s : Schedule) :
    (addFrame id length).perform s = match s.addFrame id length with
      | .ok (s', _) => (s', .ok ())
      | .error e => (s, .error (.refused e)) := by
  rw [addFrame, Change.perform_bind, perform_ofUpdate (Update.atomic_addFrame id length)]
  unfold Schedule.addFrame
  rcases (Update.addFrame id length).outcome s with e | ⟨s', x⟩ <;> rfl

/-- A link is put, or the edit stops with the schedule as it was. -/
theorem perform_putLink (cell : Cell) (options : Link.Options) (kind : Link.Kind)
    (peer : Link.Peer) (s : Schedule) :
    (putLink cell options kind peer).perform s =
      match s.putLink cell.frame cell.timeslot ⟨options, kind, peer, cell.channelOffset⟩ with
      | .ok (s', _) => (s', .ok ())
      | .error e => (s, .error (.refused e)) := by
  rw [putLink, Change.perform_bind, perform_ofUpdate (Update.atomic_putLink _ _ _)]
  unfold Schedule.putLink
  rcases (Update.putLink cell.frame cell.timeslot ⟨options, kind, peer, cell.channelOffset⟩).outcome
    s with e | ⟨s', x⟩ <;> rfl

/-- A timeslot is cleared, or the edit stops with the schedule as it was. -/
theorem perform_removeLinkAt (frame timeslot : UInt16) (s : Schedule) :
    (removeLinkAt frame timeslot).perform s = match s.removeLinkAt frame timeslot with
      | .ok (s', _) => (s', .ok ())
      | .error e => (s, .error (.refused e)) := by
  rw [removeLinkAt, Change.perform_bind, perform_ofUpdate (Update.atomic_removeLinkAt _ _)]
  unfold Schedule.removeLinkAt
  rcases (Update.removeLinkAt frame timeslot).outcome s with e | ⟨s', x⟩ <;> rfl

end Edit

/-- A cell plan as one node follows it. -/
structure Planner where
  /-- The plan. -/
  plan : CellPlan
  /-- The node's own index. -/
  index : UInt16
  /-- The lifetime of leases in slots. -/
  lifetime : UInt32
deriving DecidableEq

namespace Planner

/-- The planner of the node with this index, where slots last `slotLength` microseconds. -/
def of? (plan : CellPlan) (index : UInt16) (slotLength : UInt32) : Except TimingError Planner :=
  match plan.leaseLifetime.wholeSlots slotLength with
  | .ok lifetime => .ok ⟨plan, index, lifetime⟩
  | .error e => .error e

/-! ## The first layout -/

/-- What the node does in a fixed cell: the transmitting node also listens there. -/
def fixedOptions? (p : Planner) (l : FixedLink) : Option Link.Options :=
  if l.txIndex = p.index then some .all
  else if l.rxIndex = p.index then some .rxOnly
  else none

/-- Make the beacon slotframe and the cell in which the node sends its beacons. -/
def layOutBeacons (p : Planner) : Edit Unit := do
  Edit.addFrame CellPlan.beaconFrame p.plan.beaconPeriod
  let timeslot ← Edit.place (p.plan.beaconSlot? p.index)
  Edit.putLink ⟨CellPlan.beaconFrame, timeslot, CellPlan.beaconFrame⟩ .txOnly .advertisingOnly
    .broadcast

/-- Make the slotframe with the cell that all nodes share, if the plan has one. -/
def layOutShared (p : Planner) : Edit Unit :=
  match p.plan.sharedPeriod with
  | none => pure ()
  | some period => do
    Edit.addFrame CellPlan.sharedFrame period
    Edit.putLink ⟨CellPlan.sharedFrame, 0, CellPlan.sharedFrame⟩ .all .normal .broadcast

/-- Make the slotframes for unicast traffic. -/
def layOutUnicast (p : Planner) : Edit Unit := do
  Edit.addFrame CellPlan.unicastFrame p.plan.unicastPeriod
  match p.plan.spillPeriod with
  | none => pure ()
  | some period => Edit.addFrame CellPlan.spillFrame period

/-- Put the fixed cells that the node takes part in into the unicast slotframe, one after
another. -/
def layOutFixed (p : Planner) : Edit Unit :=
  p.plan.fixedLinks.forM fun l =>
    match p.fixedOptions? l with
    | none => pure ()
    | some options =>
      Edit.putLink ⟨CellPlan.unicastFrame, l.timeslot, CellPlan.unicastFrame⟩ options .normal
        .broadcast

/-- Make the node's own cell, in which it listens. -/
def layOutOwn (p : Planner) : Edit Unit := do
  let cell ← Edit.place (p.plan.cell? p.index)
  Edit.putLink cell .rxOnly .normal .unbound

/-- Make the slotframes and the links that exist from the start. -/
def layOut (p : Planner) : Edit Unit := do
  p.layOutBeacons
  p.layOutShared
  p.layOutUnicast
  match p.plan.ownership with
  | .sender => p.layOutFixed
  | .receiver => p.layOutOwn

end Planner

end SlottedMesh
