import SlottedMesh.Proofs.Cells.Permanent
import SlottedMesh.Proofs.Checked.Gate
import SlottedMesh.Proofs.Checked.Planner
import SlottedMesh.Proofs.Checked.Routing
import SlottedMesh.Proofs.Station.Calls

/-!
# Stations without a stop

All that can be called on a station, computed step by step: events, links that are put and taken out
by others, calls at the radio gate, and looking up the links and channels of the present slot.

* `checkedCall_eq`: on a station whose schedule has the slotframes of its plan no call stops, and
  each does what the call of the library does.
* `ended_edit`: an event of the planner is refused nothing but a link where all of them are in use.
* `calls_unstopped` is the main statement, about a station that came up, with any settings, and any
  sequence of calls.
-/

namespace SlottedMesh.Station

open Checked

/-! ## The schedule behind the gate -/

/-- Change the schedule while it is held. -/
def checkedChange {α : Type} (s : Station) (f : Schedule → Checked (Schedule × α)) :
    Checked (Station × α) := do
  let (schedule, result) ← f s.schedule
  let gate ← s.gate.acquire.checkedCall .release
  return ({ s with schedule, gate }, result)

/-- Carry out an edit of the planner while the schedule is held. -/
def checkedEdit (s : Station) (e : CheckedEdit Unit) : Checked Station := do
  let (s, _) ← s.checkedChange e.perform
  return s

/-- The links that are on now, each with the id of its slotframe. -/
def checkedCurrentLinks (s : Station) : Checked (List (UInt16 × Link)) :=
  s.schedule.checkedCurrent s.now

/-- The channel that a link takes now. -/
def checkedChannelOf (s : Station) (link : Link) : Checked UInt8 :=
  s.hopping.checkedChannelAt s.now link.channelOffset

variable {s s₀ : Station} {settings : Settings} {driver : Gate.Driver}

/-- A change while the schedule is held does not stop if the change by itself does not. -/
theorem checkedChange_eq {α : Type} {f' : Schedule → Checked (Schedule × α)}
    {f : Schedule → Schedule × α} (h : f' s.schedule = pure (f s.schedule)) :
    s.checkedChange f' = pure (s.change f) := by
  unfold checkedChange
  rw [h, pure_bind]
  simp only [Gate.checkedCall_eq, pure_bind]
  rfl

/-- An edit that agrees with that of the planner does on the station what the planner's does. -/
theorem checkedEdit_eq {e' : CheckedEdit Unit} {e : Edit Unit}
    (h : Agrees s.planner.plan e' e) (hs : s.schedule.HasFramesOf s.planner.plan) :
    s.checkedEdit e' = pure (s.edit e) := by
  unfold checkedEdit
  rw [checkedChange_eq (h s.schedule hs).perform_eq]
  rfl

/-- Looking up the links of the present slot does not stop. -/
theorem checkedCurrentLinks_eq (s : Station) : s.checkedCurrentLinks = pure s.currentLinks :=
  Schedule.checkedCurrent_eq _ _

/-- Nor does looking up a channel. -/
theorem checkedChannelOf_eq (s : Station) (link : Link) :
    s.checkedChannelOf link = pure (s.channelOf link) :=
  HoppingSequence.checkedChannelAt_eq _ _ _

/-! ## Events -/

/-- Write what the node advertises. -/
def checkedRefresh (s : Station) : Checked Station := do
  let router ← s.router.checkedRefresh s.neighbors
  return { s with router }

/-- Choose the parent anew. -/
def checkedReselect (s : Station) : Checked Station := do
  let router ← s.router.checkedReselect s.neighbors
  checkedRefresh { s with router }

/-- A slot begins. -/
def checkedTick (s : Station) (now : SlotNumber) : Checked Station :=
  if now.since s.lastSweep < s.sweepInterval.toNat then return { s with now }
  else do
    let (s, _) ← ({ s with now } : Station).checkedChange (s.planner.checkedSweep now)
    return { s with lastSweep := now }

/-- The node joins the network in this slot. -/
def checkedJoin (s : Station) (now : SlotNumber) : Checked Station := do
  let (schedule, _) ← s.planner.checkedRenewAll now s.schedule
  checkedReselect { s with now, lastSweep := now, schedule, router := s.router.join }

/-- The node follows the time of another neighbour, or of none. -/
def checkedFollowTimeSource (s : Station) (a : Option Address) : Checked Station := do
  let s' ← s.checkedEdit (s.planner.checkedFollowTimeSource s.directory s.timeSource a)
  return { s' with timeSource := a }

/-- A transmission to a neighbour came to its end after so many attempts. -/
def checkedTransmitted (s : Station) (receiver : Address) (outcome : Outcome) (attempts : UInt16)
    (isControl : Bool) : Checked Station := do
  let neighbors ←
    s.neighbors.checkedModify receiver (s.router.objective.checkedLearn outcome attempts)
  let s := { s with neighbors }
  let packet : Packet := ⟨s.address, receiver, isControl⟩
  let s ← s.checkedEdit (s.planner.checkedSent s.directory packet outcome s.now)
  s.checkedReselect

/-- An event happens. -/
def checkedStep (s : Station) : Event → Checked Station
  | .tick now => s.checkedTick now
  | .join now => s.checkedJoin now
  | .becomeRoot => checkedRefresh { s with router := s.router.becomeRoot }
  | .heard a rank metric =>
    checkedReselect { s with
      neighbors := noteAdvertised s.router.objective s.neighbors a rank metric }
  | .transmitted receiver outcome attempts isControl =>
    s.checkedTransmitted receiver outcome attempts isControl
  | .received packet => s.checkedEdit (s.planner.checkedReceived s.directory packet s.now)
  | .followTimeSource a => s.checkedFollowTimeSource a

/-- A station refreshes what it advertises without a stop, -/
theorem checkedRefresh_eq (s : Station) : s.checkedRefresh = pure s.refresh := by
  unfold checkedRefresh
  rw [Router.checkedRefresh_eq, pure_bind]
  rfl

/-- and chooses its parent. -/
theorem checkedReselect_eq (s : Station) : s.checkedReselect = pure s.reselect := by
  unfold checkedReselect
  rw [Router.checkedReselect_eq, pure_bind]
  exact checkedRefresh_eq _

/-- A slot begins without a stop, with a sweep or without. -/
theorem checkedTick_eq (hs : s.schedule.HasFramesOf s.planner.plan) (now : SlotNumber) :
    s.checkedTick now = pure (s.tick now) := by
  have hsweep : ({ s with now } : Station).checkedChange (s.planner.checkedSweep now) = _ :=
    checkedChange_eq (Planner.checkedSweep_eq hs).1
  unfold checkedTick
  rw [tick_eq, hsweep]
  split <;> rfl

/-- No event stops. -/
theorem checkedStep_eq (hs : s.schedule.HasFramesOf s.planner.plan) (e : Event) :
    s.checkedStep e = pure (s.step e) := by
  cases e with
  | tick now => exact checkedTick_eq hs now
  | join now =>
    obtain ⟨n, hrenew⟩ := Planner.exists_checkedRenewAll s.planner now s.schedule
    show s.checkedJoin now = _
    unfold checkedJoin
    rw [hrenew, pure_bind]
    exact checkedReselect_eq _
  | becomeRoot => exact checkedRefresh_eq _
  | heard a rank metric => exact checkedReselect_eq _
  | transmitted receiver outcome attempts isControl =>
    show s.checkedTransmitted receiver outcome attempts isControl = _
    unfold checkedTransmitted
    rw [NeighborTable.checkedModify_eq _ _ (Objective.checkedLearn_eq _ _ _), pure_bind]
    let t : Station := { s with
      neighbors := s.neighbors.modify receiver (s.router.objective.learn outcome attempts) }
    have hedit : t.checkedEdit (t.planner.checkedSent t.directory ⟨t.address, receiver, isControl⟩
        outcome t.now) = _ := checkedEdit_eq (Planner.agrees_sent _ _ _) hs
    show (t.checkedEdit _ >>= checkedReselect) = _
    rw [hedit, pure_bind]
    exact checkedReselect_eq _
  | received packet => exact checkedEdit_eq (Planner.agrees_received packet s.now) hs
  | followTimeSource a =>
    show s.checkedFollowTimeSource a = _
    unfold checkedFollowTimeSource
    rw [checkedEdit_eq (Planner.agrees_followTimeSource s.timeSource a) hs]
    rfl

/-! ## Calls -/

/-- Something is called on the station. -/
def checkedCall (s : Station) : Call → Checked Station
  | .event e => s.checkedStep e
  | .putLink frame timeslot attributes => do
    let (s, _) ← s.checkedChange (·.checkedPutLink frame timeslot attributes)
    return s
  | .removeLinkAt frame timeslot => do
    let (s, _) ← s.checkedChange (·.checkedRemoveLinkAt frame timeslot)
    return s
  | .gate c => do
    let gate ← s.gate.checkedCall c
    return { s with gate }

/-- Things are called on the station, one after another. -/
def checkedCalls (s : Station) (cs : List Call) : Checked Station := cs.foldlM checkedCall s

/-- No call stops. -/
theorem checkedCall_eq (hs : s.schedule.HasFramesOf s.planner.plan) (c : Call) :
    s.checkedCall c = pure (s.call c) := by
  cases c with
  | event e => exact checkedStep_eq hs e
  | putLink frame timeslot attributes =>
    have hput : s.checkedChange (·.checkedPutLink frame timeslot attributes) =
        pure (s.operate (.putLink frame timeslot attributes)) :=
      checkedChange_eq ((Schedule.checkedPutLink_eq hs frame timeslot attributes).trans
        (congrArg pure ((Update.atomic_putLink _ _ _).perform_eq _).symm))
    show (s.checkedChange (·.checkedPutLink frame timeslot attributes) >>= _) = _
    rw [hput]
    rfl
  | removeLinkAt frame timeslot =>
    have hremove : s.checkedChange (·.checkedRemoveLinkAt frame timeslot) =
        pure (s.operate (.removeLinkAt frame timeslot)) :=
      checkedChange_eq ((Schedule.checkedRemoveLinkAt_eq hs.wellFormed frame timeslot).trans
        (congrArg pure ((Update.atomic_removeLinkAt _ _).perform_eq _).symm))
    show (s.checkedChange (·.checkedRemoveLinkAt frame timeslot) >>= _) = _
    rw [hremove]
    rfl
  | gate c =>
    show (s.gate.checkedCall c >>= _) = _
    rw [Gate.checkedCall_eq]
    rfl

/-- The slotframes of the plan are there after any calls. -/
theorem hasFramesOf_calls (hs : s.schedule.HasFramesOf s.planner.plan) (cs : List Call) :
    (s.calls cs).schedule.HasFramesOf (s.calls cs).planner.plan := by
  have halike := alike_calls hs.wellFormed cs
  rw [halike.planner_eq]
  exact hs.of_sameFrames halike.wellFormed halike.sameFrames

/-- So no sequence of calls does: the slotframes of the plan are there all along. -/
theorem checkedCalls_eq (hs : s.schedule.HasFramesOf s.planner.plan) (cs : List Call) :
    s.checkedCalls cs = pure (s.calls cs) :=
  (foldlM_eq_pure checkedCall call (fun _ s => s.schedule.HasFramesOf s.planner.plan)
    (fun c _ _ hs => ⟨checkedCall_eq hs c, hasFramesOf_calls hs [c]⟩) cs s hs).1

/-- A station comes up with the slotframes of its plan. -/
theorem CameUp.hasFramesOf (h : CameUp settings driver s) :
    s.schedule.HasFramesOf s.planner.plan :=
  ⟨h.wellFormed, (Planner.pristine_layOut h.layOut_eq).2.1⟩

/-- An event of the planner is refused nothing but a link where all of them are in use. -/
theorem ended_edit (h : CameUp settings driver s₀) (cs : List Call) (e : Planner.Event) :
    ((e.edit (s₀.calls cs).planner (s₀.calls cs).directory).perform (s₀.calls cs).schedule).2 =
        .ok () ∨
      ((e.edit (s₀.calls cs).planner (s₀.calls cs).directory).perform (s₀.calls cs).schedule).2 =
        .error (.refused (.full .link settings.schedule.maxLinks)) := by
  have hcapacity : (s₀.calls cs).schedule.maxLinks = settings.schedule.maxLinks :=
    (alike_calls h.wellFormed cs).sameFrames.maxLinks_eq.trans
      (Planner.laid_layOut h.layOut_eq).maxLinks_eq
  have hagrees := Planner.agrees_edit (d := (s₀.calls cs).directory) e _
    (hasFramesOf_calls h.hasFramesOf cs)
  cases hended : ((e.edit (s₀.calls cs).planner (s₀.calls cs).directory).perform
    (s₀.calls cs).schedule).2 with
  | ok x => exact .inl rfl
  | error reason => exact .inr (by rw [hagrees.refused_eq hended, hcapacity])

/-- A station that came up stops at no call, in whatever order they are made and whatever they are
made with, and neither does looking up the links and channels of its slot.  It does what the library
says, and an event of its planner is refused nothing but a link where all of them are in use. -/
theorem calls_unstopped (hup : bringUp settings driver = .ok s₀) (cs : List Call) :
    s₀.checkedCalls cs = pure (s₀.calls cs) ∧
      (s₀.calls cs).checkedCurrentLinks = pure (s₀.calls cs).currentLinks ∧
      (∀ link, (s₀.calls cs).checkedChannelOf link = pure ((s₀.calls cs).channelOf link)) ∧
      ∀ e : Planner.Event,
        ((e.edit (s₀.calls cs).planner (s₀.calls cs).directory).perform
            (s₀.calls cs).schedule).2 = .ok () ∨
          ((e.edit (s₀.calls cs).planner (s₀.calls cs).directory).perform
            (s₀.calls cs).schedule).2 =
              .error (.refused (.full .link settings.schedule.maxLinks)) := by
  have h := cameUp_of_bringUp hup
  exact ⟨checkedCalls_eq h.hasFramesOf cs, checkedCurrentLinks_eq _, checkedChannelOf_eq _,
    ended_edit h cs⟩

/-! A node without room for more links than those of its layout joins in the last slot there is,
loses the link of its beacons, gets one of its own and one that has no place, and is told of a time
source. -/

/-- The settings of the node. -/
def noRoom : Settings :=
  { Settings.standard with schedule := { Settings.standardSchedule with maxLinks := 2 } }

/-- What is called on it. -/
def roughCalls : List Call :=
  [.event (.join (.ofNat (SlotNumber.modulus - 1))), .event (.heard (.ofLastByte 2) 1 65535),
    .removeLinkAt 0 1, .putLink 2 252 ⟨.all, .normal, .broadcast, 65535⟩,
    .putLink 2 253 ⟨.all, .normal, .broadcast, 2⟩,
    .event (.transmitted (.ofLastByte 2) .unacknowledged 65535 false), .gate .release,
    .event (.tick .zero)]

/-- The node stops at none of these calls, and afterwards it is refused a link to the new source. -/
theorem calls_unstopped_roughly :
    ∃ s₀, bringUp noRoom .quiet = .ok s₀ ∧
      s₀.checkedCalls roughCalls = pure (s₀.calls roughCalls) ∧
      (((Planner.Event.follow none (some (.ofLastByte 5))).edit (s₀.calls roughCalls).planner
        (s₀.calls roughCalls).directory).perform (s₀.calls roughCalls).schedule).2 =
          .error (.refused (.full .link 2)) := by
  obtain ⟨s₀, hup, hroom⟩ :
      ∃ s₀, bringUp noRoom .quiet = .ok s₀ ∧
        (((Planner.Event.follow none (some (.ofLastByte 5))).edit (s₀.calls roughCalls).planner
          (s₀.calls roughCalls).directory).perform (s₀.calls roughCalls).schedule).2 ≠ .ok () :=
    ⟨_, rfl, by decide +kernel⟩
  obtain ⟨hcalls, -, -, hended⟩ := calls_unstopped hup roughCalls
  exact ⟨s₀, hup, hcalls, (hended _).resolve_left hroom⟩

end SlottedMesh.Station
