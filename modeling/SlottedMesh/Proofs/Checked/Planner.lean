import SlottedMesh.Proofs.Checked.Lookup
import SlottedMesh.Proofs.Checked.Schedule

/-!
# Planners without a stop

The edits of a planner, computed step by step.  A `CheckedEdit` ends as an edit does, with a result
or a reason to be refused, or it stops.  `Agrees` says of an edit that on schedules with the
slotframes of the plan it does not stop, does what the planner's edit does, leaves the slotframes as
they are, and is refused nothing but a link where all of them are in use.  `agrees_edit` says so of
every event: cells are found because the slotframes have lengths, and links are put in slotframes
that exist at timeslots that they have.
-/

namespace SlottedMesh

open Checked

/-- An edit that stops where a machine would. -/
abbrev CheckedEdit := ExceptT PlannerError (StateT Schedule Checked)

namespace CheckedEdit

/-- The schedule after an edit, and how it ended. -/
def perform {α : Type} (e : CheckedEdit α) (s : Schedule) :
    Checked (Schedule × Except PlannerError α) :=
  Prod.swap <$> e.run.run s

/-- One update of the schedule. -/
def ofUpdate {α : Type} (f : Schedule → Checked (Schedule × Except ScheduleError α)) :
    CheckedEdit Unit := do
  let (s, result) ← f (← get)
  set s
  match result with
  | .ok _ => return ()
  | .error e => throw (.refused e)

/-- Put a link in a cell. -/
def putLink (cell : Cell) (options : Link.Options) (kind : Link.Kind) (peer : Link.Peer) :
    CheckedEdit Unit :=
  ofUpdate
    (·.checkedPutLink cell.frame cell.timeslot ⟨options, kind, peer, cell.channelOffset⟩)

/-- Take out what is at a timeslot. -/
def removeLinkAt (frame timeslot : UInt16) : CheckedEdit Unit :=
  ofUpdate (·.checkedRemoveLinkAt frame timeslot)

/-- An edit goes on from the schedule that its first part leaves, unless that part is refused or
stops. -/
theorem perform_bind {α β : Type} (e : CheckedEdit α) (f : α → CheckedEdit β) (s : Schedule) :
    (e >>= f).perform s = e.perform s >>= fun
      | (s', .ok x) => (f x).perform s'
      | (s', .error err) => pure (s', .error err) := by
  unfold perform
  rw [ExceptT.run_bind, StateT.run_bind]
  cases e.run.run s with
  | error fault => rfl
  | ok r =>
    obtain ⟨result, s'⟩ := r
    cases result <;> rfl

/-- A result does nothing to the schedule. -/
@[simp] theorem perform_pure {α : Type} (x : α) (s : Schedule) :
    (pure x : CheckedEdit α).perform s = pure (s, .ok x) := rfl

/-- A look at the schedule gives the schedule. -/
@[simp] theorem perform_get (s : Schedule) :
    (get : CheckedEdit Schedule).perform s = pure (s, .ok s) := rfl

/-- A schedule that is written is the one that is left. -/
@[simp] theorem perform_set (s s' : Schedule) :
    (set s' : CheckedEdit PUnit).perform s = pure (s', .ok ()) := rfl

/-- A write does not stop. -/
@[simp] theorem perform_modify (f : Schedule → Schedule) (s : Schedule) :
    (modify f : CheckedEdit Unit).perform s = pure (f s, .ok ()) := rfl

/-- What does not stop is a result. -/
@[simp] theorem lift_pure {α : Type} (x : α) :
    (liftM (pure x : Checked α) : CheckedEdit α) = pure x := rfl

variable {α : Type} {f : Schedule → Checked (Schedule × Except ScheduleError α)} {s s' : Schedule}

/-- An update that does not stop ends the edit with the schedule that it leaves. -/
theorem perform_ofUpdate {result : Except ScheduleError α} (h : f s = pure (s', result)) :
    (ofUpdate f).perform s = pure (s', match result with
      | .ok _ => .ok ()
      | .error e => .error (.refused e)) := by
  unfold ofUpdate
  rw [perform_bind, perform_get, pure_bind]
  simp only [h, lift_pure, pure_bind, perform_bind, perform_set]
  cases result <;> rfl

end CheckedEdit

/-! ## Edits that agree -/

/-- On this schedule the edit does not stop: it does what another one does. -/
structure AgreesOn {α : Type} (s : Schedule) (e' : CheckedEdit α) (e : Edit α) : Prop where
  /-- It does not stop, and it does the same. -/
  perform_eq : e'.perform s = pure (e.perform s)
  /-- What is kept twice agrees. -/
  wellFormed : (e.perform s).1.WellFormed
  /-- The slotframes are the same. -/
  sameFrames : Schedule.SameFrames s (e.perform s).1
  /-- It is refused nothing but a link where all of them are in use. -/
  refused_eq {reason : PlannerError} :
    (e.perform s).2 = .error reason → reason = .refused (.full .link s.maxLinks)

/-- On schedules with the slotframes of the plan the edit does not stop. -/
def Agrees {α : Type} (plan : CellPlan) (e' : CheckedEdit α) (e : Edit α) : Prop :=
  ∀ s : Schedule, s.HasFramesOf plan → AgreesOn s e' e

variable {plan : CellPlan}

/-- It is enough that both come to the same end, and that the end is as it has to be. -/
theorem AgreesOn.of_perform {α : Type} {e' : CheckedEdit α} {e : Edit α} {s s' : Schedule}
    {result : Except PlannerError α} (heq' : e'.perform s = pure (s', result))
    (heq : e.perform s = (s', result)) (hwellFormed : s'.WellFormed)
    (hframes : Schedule.SameFrames s s')
    (hrefused : ∀ reason, result = .error reason → reason = .refused (.full .link s.maxLinks)) :
    AgreesOn s e' e := by
  refine ⟨by rw [heq', heq], ?_, ?_, fun {reason} h => hrefused reason ?_⟩
  · rwa [heq]
  · rwa [heq]
  · rwa [heq] at h

/-- A result agrees with itself, -/
theorem agrees_pure {α : Type} (x : α) : Agrees plan (pure x) (pure x) :=
  fun s h => ⟨rfl, h.wellFormed, .refl s, nofun⟩

/-- and so does a look at the schedule. -/
theorem agrees_get : Agrees plan get get := fun s h => ⟨rfl, h.wellFormed, .refl s, nofun⟩

/-- An edit agrees if both of its parts do. -/
theorem agrees_bind {α β : Type} {e' : CheckedEdit α} {e : Edit α} {f' : α → CheckedEdit β}
    {f : α → Edit β} (he : Agrees plan e' e) (hf : ∀ x, Agrees plan (f' x) (f x)) :
    Agrees plan (e' >>= f') (e >>= f) := by
  intro s hs
  obtain ⟨heq, hwellFormed, hframes, hrefused⟩ := he s hs
  rcases hfirst : e.perform s with ⟨s₁, result⟩
  simp only [hfirst] at heq hwellFormed hframes hrefused
  cases result with
  | error reason =>
    have hboth' : (e' >>= f').perform s = pure (s₁, .error reason) := by
      rw [CheckedEdit.perform_bind, heq, pure_bind]
    have hboth : (e >>= f).perform s = (s₁, .error reason) := by
      rw [Change.perform_bind, hfirst]
    refine .of_perform hboth' hboth hwellFormed hframes ?_
    rintro _ ⟨⟩
    exact hrefused rfl
  | ok x =>
    have hsecond := hf x s₁ (hs.of_sameFrames hwellFormed hframes)
    have hboth' : (e' >>= f').perform s = pure ((f x).perform s₁) := by
      rw [CheckedEdit.perform_bind, heq, pure_bind]
      exact hsecond.perform_eq
    have hboth : (e >>= f).perform s = (f x).perform s₁ := by
      rw [Change.perform_bind, hfirst]
    refine .of_perform hboth' hboth hsecond.wellFormed (hframes.trans hsecond.sameFrames) ?_
    intro reason hreason
    rw [hsecond.refused_eq hreason, hframes.maxLinks_eq]

/-- Edits that hang on one condition agree if they do on both sides of it. -/
theorem agrees_ite {α : Type} {c : Prop} [Decidable c] {e₁' e₂' : CheckedEdit α} {e₁ e₂ : Edit α}
    (h₁ : Agrees plan e₁' e₁) (h₂ : Agrees plan e₂' e₂) :
    Agrees plan (if c then e₁' else e₂') (if c then e₁ else e₂) := by
  split
  · exact h₁
  · exact h₂

/-- Links are put in slotframes that exist, at timeslots that they have. -/
theorem agrees_putLink {cell : Cell} {length : UInt16}
    (hlength : plan.length? cell.frame = some length) (htimeslot : cell.timeslot < length)
    (options : Link.Options) (kind : Link.Kind) (peer : Link.Peer) :
    Agrees plan (.putLink cell options kind peer) (Edit.putLink cell options kind peer) := by
  intro s hs
  have hchecked := Schedule.checkedPutLink_eq hs cell.frame cell.timeslot
    ⟨options, kind, peer, cell.channelOffset⟩
  rcases Schedule.putLink_eq_ok_or_full ((hs.length?_eq _).trans hlength) htimeslot
    ⟨options, kind, peer, cell.channelOffset⟩ with ⟨s', l, hput⟩ | ⟨hput, -, -⟩
  · have hset := (Schedule.setAt_putLink hs.wellFormed hput).2
    rw [hput] at hchecked
    exact .of_perform (CheckedEdit.perform_ofUpdate hchecked)
      (Edit.perform_putLink_of_eq_ok hput) hset.wellFormed hset.sameFrames nofun
  · rw [hput] at hchecked
    refine .of_perform (CheckedEdit.perform_ofUpdate hchecked)
      (Edit.perform_putLink_of_eq_error hput) hs.wellFormed (.refl s) ?_
    intro reason hreason
    cases hreason
    rfl

/-- Links are taken out of slotframes that exist. -/
theorem agrees_removeLinkAt {frame length : UInt16} (hlength : plan.length? frame = some length)
    (timeslot : UInt16) :
    Agrees plan (.removeLinkAt frame timeslot) (Edit.removeLinkAt frame timeslot) := by
  intro s hs
  have hchecked := Schedule.checkedRemoveLinkAt_eq hs.wellFormed frame timeslot
  obtain ⟨s', removed, hremove, -⟩ :=
    Schedule.removeLinkAt_eq_ok ((hs.length?_eq _).trans hlength) timeslot
  have hset := Schedule.setAt_removeLinkAt hs.wellFormed hremove
  rw [hremove] at hchecked
  exact .of_perform (CheckedEdit.perform_ofUpdate hchecked)
    (by rw [Edit.perform_removeLinkAt, hremove]) hset.wellFormed hset.sameFrames nofun

/-- The cell of an index is found, and it lies in its slotframe. -/
theorem agrees_cell {α : Type} (index : UInt16) {f' : Cell → CheckedEdit α} {f : Cell → Edit α}
    (hf : ∀ cell length, plan.length? cell.frame = some length → cell.timeslot < length →
      Agrees plan (f' cell) (f cell)) :
    Agrees plan (liftM (plan.checkedCell index) >>= f') (Edit.place (plan.cell? index) >>= f) := by
  intro s hs
  obtain ⟨cell, length, hchecked, hcell, hlength, htimeslot⟩ :=
    CellPlan.exists_checkedCell hs.length?_ne index
  rw [hchecked, hcell, CheckedEdit.lift_pure, pure_bind]
  exact hf cell length hlength htimeslot s hs

/-- The timeslot in which a node sends its beacons is found, and it lies in the beacon slotframe. -/
theorem agrees_beaconSlot {α : Type} (index : UInt16) {f' : UInt16 → CheckedEdit α}
    {f : UInt16 → Edit α}
    (hf : ∀ timeslot < plan.beaconPeriod, Agrees plan (f' timeslot) (f timeslot)) :
    Agrees plan (liftM (plan.checkedBeaconSlot index) >>= f')
      (Edit.place (plan.beaconSlot? index) >>= f) := by
  intro s hs
  obtain ⟨timeslot, hchecked, hslot⟩ := CellPlan.checkedBeaconSlot_eq hs.length?_ne index
  rw [hchecked, hslot, CheckedEdit.lift_pure, pure_bind]
  exact hf timeslot (CellPlan.lt_of_beaconSlot? hslot) s hs

/-! ## The edits of a planner -/

namespace Planner

/-- Sweep the unicast slotframes in slot `now`. -/
def checkedExpire (p : Planner) (now : SlotNumber) : CheckedEdit Unit := do
  let (s, _) ← p.checkedSweep now (← get)
  set s

/-- Start every lease afresh in slot `now`. -/
def checkedRestart (p : Planner) (now : SlotNumber) : CheckedEdit Unit := do
  let (s, _) ← p.checkedRenewAll now (← get)
  set s

/-- Add options to the link that was found at a cell, or make one there. -/
def checkedPutMerged (cell : Cell) (old : Option Link) (added : Link.Options)
    (peer : Option Link.Peer) : CheckedEdit Unit :=
  let options := old.elim added (·.options.union added)
  let peer := peer.getD (old.elim .unbound (·.peer))
  if old.map (fun link => (link.options, link.peer)) = some (options, peer) then pure ()
  else .putLink cell options .normal peer

/-- Add options to the link at a cell, which is made if there is none, and note the use. -/
def checkedMerge (cell : Cell) (added : Link.Options) (peer : Option Link.Peer)
    (direction : Direction) (now : SlotNumber) : CheckedEdit Unit := do
  let old := (← get).link? cell.frame cell.timeslot
  checkedPutMerged cell old added peer
  modify (stampCell cell old.isNone direction now)

/-- A packet was received in slot `now`. -/
def checkedReceived (p : Planner) (d : Directory) (packet : Packet) (now : SlotNumber) :
    CheckedEdit Unit :=
  if packet.isControl then pure ()
  else do
    p.checkedExpire now
    let sender ← d.checkedIndexOf? packet.sender
    match p.plan.ownership, d.idOf? packet.receiver, sender with
    | .sender, some _, some index =>
      let cell ← p.plan.checkedCell index
      checkedMerge cell .rxOnly none .rx now
    | _, _, _ => pure ()

/-- The transmission of a packet came to its end in slot `now`. -/
def checkedSent (p : Planner) (d : Directory) (packet : Packet) (outcome : Outcome)
    (now : SlotNumber) : CheckedEdit Unit :=
  if packet.isControl then pure ()
  else do
    p.checkedExpire now
    let receiver ← d.checkedIndexOf? packet.receiver
    match receiver, outcome with
    | some index, .delivered =>
      let owner := match p.plan.ownership with
        | .sender => p.index
        | .receiver => index
      let cell ← p.plan.checkedCell owner
      checkedMerge cell p.lentOptions (some (.unicast packet.receiver)) .tx now
    | _, _ => pure ()

/-- Stop to listen for the beacons of the node with this index. -/
def checkedMuteBeacons (p : Planner) (own : UInt16) : Option UInt16 → CheckedEdit Unit
  | none => pure ()
  | some index => do
    let timeslot ← p.plan.checkedBeaconSlot index
    if timeslot = own then pure () else .removeLinkAt CellPlan.beaconFrame timeslot

/-- Listen for the beacons of the node with this index. -/
def checkedHearBeacons (p : Planner) (own : UInt16) : Option UInt16 → CheckedEdit Unit
  | none => pure ()
  | some index => do
    let timeslot ← p.plan.checkedBeaconSlot index
    if timeslot = own then pure ()
    else
      .putLink ⟨CellPlan.beaconFrame, timeslot, CellPlan.beaconFrame⟩ .rxOnly .advertisingOnly
        .unbound

/-- Move the link on which the node listens for beacons. -/
def checkedFollowTimeSource (p : Planner) (d : Directory) (old new : Option Address) :
    CheckedEdit Unit := do
  let oldIndex ← d.checkedSourceIndex? old
  let newIndex ← d.checkedSourceIndex? new
  if oldIndex = newIndex then pure ()
  else do
    let own ← p.plan.checkedBeaconSlot p.index
    p.checkedMuteBeacons own oldIndex
    p.checkedHearBeacons own newIndex

/-- What the planner does to the schedule in an event. -/
def Event.checkedEdit (p : Planner) (d : Directory) : Event → CheckedEdit Unit
  | received packet now => p.checkedReceived d packet now
  | sent packet outcome now => p.checkedSent d packet outcome now
  | expire now => p.checkedExpire now
  | join now => p.checkedRestart now
  | follow old new => p.checkedFollowTimeSource d old new

variable {p : Planner} {d : Directory}

/-- A sweep counts fewer links than fit into a word. -/
theorem agrees_expire (now : SlotNumber) :
    Agrees p.plan (p.checkedExpire now) (modify fun s => (p.sweep now s).1) := by
  intro s hs
  have hwork : Schedule.Reworked _ _ s (p.sweep now s).1 := sweep_reworked hs.wellFormed
  refine ⟨?_, hwork.wellFormed, hwork.sameFrames, nofun⟩
  unfold checkedExpire
  rw [CheckedEdit.perform_bind, CheckedEdit.perform_get, pure_bind]
  simp only [(checkedSweep_eq hs).1, CheckedEdit.lift_pure, pure_bind]
  rfl

/-- Starting the leases afresh, too, counts no more than fit. -/
theorem agrees_restart (now : SlotNumber) :
    Agrees p.plan (p.checkedRestart now) (modify (p.renewAll now)) := by
  intro s hs
  have hwork : Schedule.Reworked _ _ s (p.renewAll now s) := renewAll_reworked hs.wellFormed
  obtain ⟨n, hrenew⟩ := exists_checkedRenewAll p now s
  refine ⟨?_, hwork.wellFormed, hwork.sameFrames, nofun⟩
  unfold checkedRestart
  rw [CheckedEdit.perform_bind, CheckedEdit.perform_get, pure_bind]
  simp only [hrenew, CheckedEdit.lift_pure, pure_bind]
  rfl

/-- Stamping a lease counts nothing. -/
theorem agrees_stampCell (cell : Cell) (isNew : Bool) (direction : Direction) (now : SlotNumber) :
    Agrees plan (modify (stampCell cell isNew direction now))
      (modify (stampCell cell isNew direction now)) := by
  intro s hs
  cases hl : s.link? cell.frame cell.timeslot with
  | none =>
    have hsame : stampCell cell isNew direction now s = s := by
      unfold stampCell
      rw [hl]
    refine ⟨rfl, ?_, ?_, nofun⟩
    · rw [Change.perform_modify, hsame]
      exact hs.wellFormed
    · rw [Change.perform_modify, hsame]
      exact .refl s
  | some l =>
    have hset := setAt_stampCell direction now hs.wellFormed hl isNew
    exact ⟨rfl, hset.wellFormed, hset.sameFrames, nofun⟩

/-- A use of a cell is put where there is room for it or refused for want of room. -/
theorem agrees_merge {cell : Cell} {length : UInt16}
    (hlength : plan.length? cell.frame = some length) (htimeslot : cell.timeslot < length)
    (added : Link.Options) (peer : Option Link.Peer) (direction : Direction) (now : SlotNumber) :
    Agrees plan (checkedMerge cell added peer direction now)
      (merge cell added peer direction now) := by
  refine agrees_bind agrees_get fun s => agrees_bind ?_ fun _ =>
    agrees_stampCell cell _ direction now
  exact agrees_ite (agrees_pure ()) (agrees_putLink hlength htimeslot _ _ _)

/-- A use that is made of a cell agrees. -/
theorem agrees_use (index : UInt16) (added : Link.Options) (peer : Option Link.Peer)
    (direction : Direction) (now : SlotNumber) :
    Agrees plan
      (liftM (plan.checkedCell index) >>= fun cell => checkedMerge cell added peer direction now)
      (Edit.place (plan.cell? index) >>= fun cell => merge cell added peer direction now) :=
  agrees_cell index fun _ _ hlength htimeslot =>
    agrees_merge hlength htimeslot added peer direction now

/-- A reception agrees: the cell of its owner exists. -/
theorem agrees_received (packet : Packet) (now : SlotNumber) :
    Agrees p.plan (p.checkedReceived d packet now) (p.received d packet now) := by
  refine agrees_ite (agrees_pure ()) (agrees_bind (agrees_expire now) fun _ => ?_)
  rw [Directory.checkedIndexOf?_eq, CheckedEdit.lift_pure, pure_bind]
  cases p.plan.ownership with
  | receiver => exact agrees_pure ()
  | sender =>
    cases d.idOf? packet.receiver with
    | none => exact agrees_pure ()
    | some id =>
      cases d.indexOf? packet.sender with
      | none => exact agrees_pure ()
      | some index => exact agrees_use index _ _ _ now

/-- So does the end of a transmission. -/
theorem agrees_sent (packet : Packet) (outcome : Outcome) (now : SlotNumber) :
    Agrees p.plan (p.checkedSent d packet outcome now) (p.sent d packet outcome now) := by
  refine agrees_ite (agrees_pure ()) (agrees_bind (agrees_expire now) fun _ => ?_)
  rw [Directory.checkedIndexOf?_eq, CheckedEdit.lift_pure, pure_bind]
  cases d.indexOf? packet.receiver with
  | none => exact agrees_pure ()
  | some index =>
    cases outcome with
    | delivered => exact agrees_use _ _ _ _ now
    | _ => exact agrees_pure ()

/-- Not to listen any more agrees. -/
theorem agrees_muteBeacons (own : UInt16) (index? : Option UInt16) :
    Agrees p.plan (p.checkedMuteBeacons own index?) (p.muteBeacons own index?) := by
  cases index? with
  | none => exact agrees_pure ()
  | some index =>
    exact agrees_beaconSlot index fun timeslot _ =>
      agrees_ite (agrees_pure ()) (agrees_removeLinkAt rfl timeslot)

/-- To begin to listen agrees. -/
theorem agrees_hearBeacons (own : UInt16) (index? : Option UInt16) :
    Agrees p.plan (p.checkedHearBeacons own index?) (p.hearBeacons own index?) := by
  cases index? with
  | none => exact agrees_pure ()
  | some index =>
    exact agrees_beaconSlot index fun timeslot htimeslot =>
      agrees_ite (agrees_pure ()) (agrees_putLink rfl htimeslot _ _ _)

/-- So does a move from one time source to another. -/
theorem agrees_followTimeSource (old new : Option Address) :
    Agrees p.plan (p.checkedFollowTimeSource d old new) (p.followTimeSource d old new) := by
  unfold checkedFollowTimeSource
  simp only [Directory.checkedSourceIndex?_eq, CheckedEdit.lift_pure, pure_bind]
  refine agrees_ite (agrees_pure ()) (agrees_beaconSlot p.index fun own _ => ?_)
  exact agrees_bind (agrees_muteBeacons own _) fun _ => agrees_hearBeacons own _

/-- No event stops, and links are all that an event is refused. -/
theorem agrees_edit (e : Event) : Agrees p.plan (e.checkedEdit p d) (e.edit p d) := by
  cases e with
  | received packet now => exact agrees_received packet now
  | sent packet outcome now => exact agrees_sent packet outcome now
  | expire now => exact agrees_expire now
  | join now => exact agrees_restart now
  | follow old new => exact agrees_followTimeSource old new

end Planner

end SlottedMesh
