import Mathlib.Logic.Relation
import SlottedMesh.Proofs.Cells.Merge

/-!
# What a planner does to cells

The events of a node that its planner takes part in, and what they can do to the link at one place.

* `Event.use?` is the use that a packet makes of a cell, and `perform_received` and `perform_sent`
  say that a packet is a sweep and then that use.
* `Touch` lists the ways in which what is at a place changes, each with the places where it can.
* `touching_edit` says that every event changes every place by touches alone, with any packets and
  in any slots, and also if it stops half-way.  What touches preserve, runs preserve.
-/

namespace SlottedMesh.Planner

open Schedule

/-- What a planner takes part in. -/
inductive Event where
  /-- A packet was received. -/
  | received (packet : Packet) (now : SlotNumber)
  /-- The transmission of a packet came to its end. -/
  | sent (packet : Packet) (outcome : Outcome) (now : SlotNumber)
  /-- Leases are swept. -/
  | expire (now : SlotNumber)
  /-- The node joins the network. -/
  | join (now : SlotNumber)
  /-- The node follows the time of another neighbour, or of none. -/
  | follow (old new : Option Address)

namespace Event

/-- The slot of an event that has one. -/
def slot? : Event → Option SlotNumber
  | received _ now | sent _ _ now | expire now | join now => some now
  | follow _ _ => none

/-- What the planner does to the schedule. -/
def edit (p : Planner) (d : Directory) : Event → Edit Unit
  | received packet now => p.received d packet now
  | sent packet outcome now => p.sent d packet outcome now
  | expire now => modify fun s => (p.sweep now s).1
  | join now => modify (p.renewAll now)
  | follow old new => p.followTimeSource d old new

end Event

/-- The schedule after a run of events. -/
def run (p : Planner) (d : Directory) (s : Schedule) (es : List Event) : Schedule :=
  es.foldl (fun s e => ((e.edit p d).perform s).1) s

/-! ## The use of a cell -/

/-- A use of a cell. -/
structure Use where
  /-- The direction in which the cell is used. -/
  direction : Direction
  /-- The index of the node that owns the cell. -/
  owner : UInt16
  /-- The neighbour that the link is bound to, if it is. -/
  peer : Option Link.Peer

/-- The options that a use in this direction adds. -/
def optionsFor (p : Planner) : Direction → Link.Options
  | .tx => p.lentOptions
  | .rx => .rxOnly

/-- A use adds its own direction and no other. -/
theorem has_optionsFor (p : Planner) (direction d : Direction) :
    (p.optionsFor direction).has d = true ↔ d = direction := by
  unfold optionsFor lentOptions
  cases direction <;> cases d <;> cases p.plan.sharesLentCells <;> decide

/-- Whom a packet that is sent to the node with this index meets: itself where senders own the
cells, else that node. -/
def cellOwner (p : Planner) (index : UInt16) : UInt16 :=
  match p.plan.ownership with
  | .sender => p.index
  | .receiver => index

/-- The use that an event makes of a cell, if it makes one. -/
def Event.use? (p : Planner) (d : Directory) : Event → Option Use
  | received packet _ =>
    match packet.isControl, p.plan.ownership, d.idOf? packet.receiver, d.indexOf? packet.sender with
    | false, .sender, some _, some index => some ⟨.rx, index, none⟩
    | _, _, _, _ => none
  | sent packet outcome _ =>
    match packet.isControl, d.indexOf? packet.receiver, outcome with
    | false, some index, .delivered =>
      some ⟨.tx, p.cellOwner index, some (.unicast packet.receiver)⟩
    | _, _, _ => none
  | _ => none

/-- Make use of a cell. -/
def make (p : Planner) (now : SlotNumber) : Option Use → Edit Unit
  | none => pure ()
  | some u => do
    let cell ← Edit.place (p.plan.cell? u.owner)
    merge cell (p.optionsFor u.direction) u.peer u.direction now

variable {p : Planner} {d : Directory} {packet : Packet} {outcome : Outcome} {now : SlotNumber}
  {s s' s'' : Schedule}

/-- To receive a packet is to sweep and then to make the use of it. -/
theorem perform_received (hcontrol : packet.isControl = false) :
    (p.received d packet now).perform s =
      (p.make now ((Event.received packet now).use? p d)).perform (p.sweep now s).1 := by
  simp only [received, Event.use?, hcontrol, Bool.false_eq_true, if_false, Change.perform_bind,
    Change.perform_modify]
  cases p.plan.ownership with
  | receiver => rfl
  | sender =>
    cases d.idOf? packet.receiver with
    | none => rfl
    | some id => cases d.indexOf? packet.sender <;> rfl

/-- To have sent a packet is to sweep and then to make the use of it. -/
theorem perform_sent (hcontrol : packet.isControl = false) :
    (p.sent d packet outcome now).perform s =
      (p.make now ((Event.sent packet outcome now).use? p d)).perform (p.sweep now s).1 := by
  simp only [sent, Event.use?, hcontrol, Bool.false_eq_true, if_false, Change.perform_bind,
    Change.perform_modify]
  cases d.indexOf? packet.receiver with
  | none => rfl
  | some index => cases outcome <;> rfl

/-- An event that makes a use of a cell is a sweep and then that use. -/
theorem perform_edit_of_use? {e : Event} {u : Use} (h : e.use? p d = some u) :
    ∃ now, e.slot? = some now ∧
      (e.edit p d).perform s = (p.make now (some u)).perform (p.sweep now s).1 := by
  cases e with
  | received packet now =>
    cases hcontrol : packet.isControl with
    | true =>
      simp only [Event.use?, hcontrol] at h
      cases h
    | false =>
      refine ⟨now, rfl, ?_⟩
      rw [← h]
      exact perform_received hcontrol
  | sent packet outcome now =>
    cases hcontrol : packet.isControl with
    | true =>
      simp only [Event.use?, hcontrol] at h
      cases h
    | false =>
      refine ⟨now, rfl, ?_⟩
      rw [← h]
      exact perform_sent hcontrol
  | expire now => cases h
  | join now => cases h
  | follow old new => cases h

/-- A use is refused and leaves all as it was, or it finds its cell and the cell holds the merged
link. -/
theorem perform_make (u : Use) (now : SlotNumber) (hs : s.WellFormed) :
    (∃ e, (p.make now (some u)).perform s = (s, .error e)) ∨
      ∃ cell s', p.plan.cell? u.owner = some cell ∧
        (p.make now (some u)).perform s = (s', .ok ()) ∧
        SetAt cell.frame cell.timeslot (some (merged cell (p.optionsFor u.direction) u.peer
          u.direction now s.nextHandle (s.link? cell.frame cell.timeslot))) s s' := by
  unfold make
  dsimp only
  cases hcell : p.plan.cell? u.owner with
  | none => exact .inl ⟨_, rfl⟩
  | some cell =>
    simp only [Edit.place, pure_bind]
    rcases perform_merge cell (p.optionsFor u.direction) u.peer u.direction now hs with
      ⟨reason, hmerge, -⟩ | ⟨s', hmerge, hset⟩
    · exact .inl ⟨_, hmerge⟩
    · exact .inr ⟨cell, s', rfl, hmerge, hset⟩

/-- A use that is made finds its cell, and the cell holds the merged link. -/
theorem make_eq_ok {u : Use} (hs : s.WellFormed)
    (h : (p.make now (some u)).perform s = (s', .ok ())) :
    ∃ cell, p.plan.cell? u.owner = some cell ∧
      SetAt cell.frame cell.timeslot (some (merged cell (p.optionsFor u.direction) u.peer
        u.direction now s.nextHandle (s.link? cell.frame cell.timeslot))) s s' := by
  rcases perform_make u now hs with ⟨e, hmake⟩ | ⟨cell, s₁, hcell, hmake, hset⟩
  · rw [hmake] at h
    cases h
  · rw [hmake] at h
    cases h
    exact ⟨cell, hcell, hset⟩

/-! ## Touches -/

/-- A use that a planner makes: where senders own the cells, a node sends in its own cell and
listens in those of others; where receivers do, it only sends. -/
structure Use.Fits (u : Use) (p : Planner) : Prop where
  /-- A node that sends where senders own the cells sends in its own cell. -/
  owner_eq : u.direction = .tx → p.plan.ownership = .sender → u.owner = p.index
  /-- A node listens in cells of others only where senders own the cells. -/
  ownership_eq : u.direction = .rx → p.plan.ownership = .sender
  /-- A link on which the node sends is bound to a neighbour. -/
  peer_tx : u.direction = .tx → ∃ a, u.peer = some (.unicast a)
  /-- A link on which the node only listens is not bound. -/
  peer_rx : u.direction = .rx → u.peer = none

/-- The use that an event makes is one that a planner makes. -/
theorem Event.fits_of_use?_eq_some {e : Event} {u : Use} (h : e.use? p d = some u) : u.Fits p := by
  unfold Event.use? at h
  split at h
  · split at h
    · rename_i hownership _ _
      cases h
      exact ⟨nofun, fun _ => hownership, nofun, fun _ => rfl⟩
    · cases h
  · split at h
    · cases h
      refine ⟨fun _ hownership => ?_, nofun, fun _ => ⟨_, rfl⟩, nofun⟩
      simp only [cellOwner, hownership]
    · cases h
  · cases h

/-- What is set of a link on which a node listens for beacons. -/
def hearing : Link.Attributes := ⟨.rxOnly, .advertisingOnly, .unbound, CellPlan.beaconFrame⟩

/-- How what is at a place may change, in one of these slots. -/
inductive Touch (p : Planner) (slot? : Option SlotNumber) (frame timeslot : UInt16) :
    Option Link → Option Link → Prop
  /-- A sweep judges the link. -/
  | judged {now : SlotNumber} {l : Link} (hnow : now ∈ slot?)
      (hframe : frame ∈ p.plan.unicastFrames) :
      Touch p slot? frame timeslot (some l) ((p.verdict now l).leave l)
  /-- A join starts the lease afresh. -/
  | renewed {now : SlotNumber} {l : Link} (hnow : now ∈ slot?)
      (hframe : frame ∈ p.plan.unicastFrames) :
      Touch p slot? frame timeslot (some l) (some (l.renewed now))
  /-- A use is merged into the cell. -/
  | used {now : SlotNumber} {o : Option Link} {cell : Cell} {u : Use} {handle : UInt32}
      (hnow : now ∈ slot?) (hu : u.Fits p) (hcell : p.plan.cell? u.owner = some cell)
      (hframe : frame = cell.frame) (htimeslot : timeslot = cell.timeslot) :
      Touch p slot? frame timeslot o
        (some (merged cell (p.optionsFor u.direction) u.peer u.direction now handle o))
  /-- The node listens no more for the beacons of its old time source. -/
  | muted {o : Option Link} {own : UInt16} (hframe : frame = CellPlan.beaconFrame)
      (hown : p.plan.beaconSlot? p.index = some own) (haway : timeslot ≠ own) :
      Touch p slot? frame timeslot o none
  /-- The node listens for the beacons of its new time source. -/
  | heard {o : Option Link} {own : UInt16} {handle : UInt32}
      (hframe : frame = CellPlan.beaconFrame)
      (hown : p.plan.beaconSlot? p.index = some own) (haway : timeslot ≠ own) :
      Touch p slot? frame timeslot o (some (placed frame timeslot handle hearing o))

/-- The slotframes stay, and every place changes by touches. -/
structure Touches (p : Planner) (slot? : Option SlotNumber) (s s' : Schedule) : Prop where
  /-- What is kept twice agrees. -/
  wellFormed : s'.WellFormed
  /-- The slotframes are the same. -/
  sameFrames : SameFrames s s'
  /-- What is at a place changes by touches. -/
  link?_touched (g t : UInt16) :
    Relation.ReflTransGen (p.Touch slot? g t) (s.link? g t) (s'.link? g t)

variable {slot? : Option SlotNumber}

/-- Nothing done is touches. -/
theorem Touches.refl (hs : s.WellFormed) : p.Touches slot? s s :=
  ⟨hs, .refl s, fun _ _ => .refl⟩

/-- Touches after touches are touches. -/
theorem Touches.trans (h : p.Touches slot? s s') (h' : p.Touches slot? s' s'') :
    p.Touches slot? s s'' :=
  ⟨h'.wellFormed, h.sameFrames.trans h'.sameFrames,
    fun g t => (h.link?_touched g t).trans (h'.link?_touched g t)⟩

/-- A place is set to what one touch makes of it. -/
theorem touches_of_setAt {frame timeslot : UInt16} {o : Option Link}
    (h : SetAt frame timeslot o s s')
    (htouch : p.Touch slot? frame timeslot (s.link? frame timeslot) o) : p.Touches slot? s s' := by
  refine ⟨h.wellFormed, h.sameFrames, fun g t => ?_⟩
  rw [h.link?_eq]
  split
  · rename_i hgt
    obtain ⟨rfl, rfl⟩ := hgt
    exact .single htouch
  · exact .refl

/-- The links of the unicast slotframes are reworked by touches. -/
theorem touches_of_reworked {rework : Link → Option Link}
    (h : Reworked (fun g _ => g ∈ p.plan.unicastFrames) rework s s')
    (htouch : ∀ g t l, g ∈ p.plan.unicastFrames → p.Touch slot? g t (some l) (rework l)) :
    p.Touches slot? s s' := by
  refine ⟨h.wellFormed, h.sameFrames, fun g t => ?_⟩
  by_cases hg : g ∈ p.plan.unicastFrames
  · rw [h.link?_of hg]
    cases s.link? g t with
    | none => exact .refl
    | some l => exact .single (htouch g t l hg)
  · rw [h.link?_of_not hg]

/-! ## Edits that touch -/

/-- An edit that changes the schedule by touches, also if it stops half-way. -/
def Touching {α : Type} (p : Planner) (slot? : Option SlotNumber) (e : Edit α) : Prop :=
  ∀ s : Schedule, s.WellFormed → p.Touches slot? s (e.perform s).1

/-- A result touches nothing. -/
theorem touching_pure {α : Type} (x : α) : p.Touching slot? (pure x) := fun _ hs => .refl hs

/-- An edit touches if both of its parts do. -/
theorem touching_bind {α β : Type} {e : Edit α} {f : α → Edit β} (he : p.Touching slot? e)
    (hf : ∀ x, p.Touching slot? (f x)) : p.Touching slot? (e >>= f) := by
  intro s hs
  have hfirst := he s hs
  rw [Change.perform_bind]
  split
  · rename_i s₁ x hok
    rw [hok] at hfirst
    exact hfirst.trans (hf x s₁ hfirst.wellFormed)
  · rename_i s₁ reason herror
    rw [herror] at hfirst
    exact hfirst

/-- What is done at a place that only exists if its period has a length. -/
theorem touching_place {α β : Type} {o : Option α} {f : α → Edit β}
    (hf : ∀ x, o = some x → p.Touching slot? (f x)) :
    p.Touching slot? (Edit.place o >>= f) := by
  cases o with
  | none => exact fun s hs => .refl hs
  | some x => exact hf x rfl

/-- A sweep is touches, -/
theorem touching_sweep (hnow : now ∈ slot?) :
    p.Touching slot? (modify fun s => (p.sweep now s).1) := by
  intro s hs
  exact touches_of_reworked (sweep_reworked hs) fun _ _ _ hg => .judged hnow hg

/-- and so is starting every lease afresh, -/
theorem touching_renewAll (hnow : now ∈ slot?) : p.Touching slot? (modify (p.renewAll now)) := by
  intro s hs
  exact touches_of_reworked (renewAll_reworked hs) fun _ _ _ hg => .renewed hnow hg

/-- or making use of a cell. -/
theorem touching_make (hnow : now ∈ slot?) {u? : Option Use} (hu : ∀ u ∈ u?, u.Fits p) :
    p.Touching slot? (p.make now u?) := by
  cases u? with
  | none => exact touching_pure ()
  | some u =>
    intro s hs
    rcases perform_make u now hs with ⟨e, hmake⟩ | ⟨cell, s', hcell, hmake, hset⟩
    · rw [hmake]
      exact .refl hs
    · rw [hmake]
      exact touches_of_setAt hset (.used hnow (hu u rfl) hcell rfl rfl)

/-- A packet touches, whatever comes of it. -/
theorem touching_packet (hnow : now ∈ slot?) {e : Edit Unit} {u? : Option Use}
    (hu : ∀ u ∈ u?, u.Fits p)
    (he : ∀ s, e.perform s = (p.make now u?).perform (p.sweep now s).1) : p.Touching slot? e := by
  intro s hs
  have hsweep : p.Touches slot? s (p.sweep now s).1 := touching_sweep hnow s hs
  rw [he]
  exact hsweep.trans (touching_make hnow hu _ hsweep.wellFormed)

/-- To stop listening for beacons touches one place of the beacon slotframe at most, -/
theorem touching_muteBeacons {own : UInt16} (hown : p.plan.beaconSlot? p.index = some own)
    (index? : Option UInt16) : p.Touching slot? (p.muteBeacons own index?) := by
  cases index? with
  | none => exact touching_pure ()
  | some index =>
    refine touching_place fun timeslot _ => ?_
    unfold awayFrom
    split
    · exact touching_pure ()
    · rename_i haway
      intro s hs
      rw [Edit.perform_removeLinkAt]
      cases hremove : s.removeLinkAt CellPlan.beaconFrame timeslot with
      | error e => exact .refl hs
      | ok r => exact touches_of_setAt (setAt_removeLinkAt hs hremove) (.muted rfl hown haway)

/-- and to begin touches one, which is not the node's own. -/
theorem touching_hearBeacons {own : UInt16} (hown : p.plan.beaconSlot? p.index = some own)
    (index? : Option UInt16) : p.Touching slot? (p.hearBeacons own index?) := by
  cases index? with
  | none => exact touching_pure ()
  | some index =>
    refine touching_place fun timeslot _ => ?_
    unfold awayFrom
    split
    · exact touching_pure ()
    · rename_i haway
      intro s hs
      rw [Edit.perform_putLink]
      split
      · rename_i hput
        obtain ⟨hl, hset⟩ := setAt_putLink hs hput
        refine touches_of_setAt hset ?_
        rw [hl]
        exact .heard rfl hown haway
      · exact .refl hs

/-- So does a move from one time source to another. -/
theorem touching_followTimeSource (old new : Option Address) :
    p.Touching slot? (p.followTimeSource d old new) := by
  unfold followTimeSource
  simp only []
  split
  · exact touching_pure ()
  · refine touching_place fun own hown => ?_
    exact touching_bind (touching_muteBeacons hown _) fun _ => touching_hearBeacons hown _

/-- Every event changes every place by touches. -/
theorem touching_edit (e : Event) : p.Touching e.slot? (e.edit p d) := by
  cases e with
  | received packet now =>
    show p.Touching (some now) (p.received d packet now)
    cases hcontrol : packet.isControl with
    | true =>
      unfold received
      rw [if_pos hcontrol]
      exact touching_pure ()
    | false =>
      exact touching_packet rfl (fun u hu => Event.fits_of_use?_eq_some hu) fun s =>
        perform_received hcontrol
  | sent packet outcome now =>
    show p.Touching (some now) (p.sent d packet outcome now)
    cases hcontrol : packet.isControl with
    | true =>
      unfold sent
      rw [if_pos hcontrol]
      exact touching_pure ()
    | false =>
      exact touching_packet rfl (fun u hu => Event.fits_of_use?_eq_some hu) fun s =>
        perform_sent hcontrol
  | expire now => exact touching_sweep rfl
  | join now => exact touching_renewAll rfl
  | follow old new => exact touching_followTimeSource old new

end SlottedMesh.Planner
