import SlottedMesh.Proofs.Cells.Persistence
import SlottedMesh.Proofs.Schedule.Current
import SlottedMesh.Time.Hopping

/-!
# Rendezvous

Two nodes that exchange a packet find each other's cell without a word about it: the one that sent
and the one that received work out the same cell, each from what it knows, and hold links in it that
meet.

The cell is that of `CellPlan.cell?` for the node that owns it.  Where senders own the cells, the
sender takes its own index and the receiver looks up the sender's address; where receivers do, it is
the other way round, and the receiver need not do anything, as it listens in its own cell for good.
`rendezvous` is the main statement: the two links are in one slotframe at one timeslot with one
channel offset, and for the lifetime of leases after the packet they stay there, whatever else the
two nodes do, and are offered in just the slots of that timeslot.
-/

namespace SlottedMesh

/-- A node of a deployment: its address leads to its id, and its id to the index that its planner
has. -/
structure Party (d : Directory) where
  /-- What decides on the node's cells. -/
  planner : Planner
  /-- The id of the node. -/
  id : UInt16
  /-- The address of the node. -/
  address : Address
  /-- The address leads to the id. -/
  idOf?_address : d.idOf? address = some id
  /-- The id leads to the index. -/
  indexOfId?_id : d.indexOfId? id = some planner.index

namespace Party

variable {d : Directory}

/-- Everyone finds the index of the node from its address. -/
theorem indexOf?_address (a : Party d) : d.indexOf? a.address = some a.planner.index := by
  unfold Directory.indexOf?
  rw [a.idOf?_address]
  exact a.indexOfId?_id

/-- The schedules of the node: a layout that succeeded, with any capacities, and then any events. -/
def Reaches (a : Party d) (s : Schedule) : Prop :=
  ∃ maxFrames maxLinks s₀ es,
    a.planner.layOut.perform (.empty maxFrames maxLinks) = (s₀, .ok ()) ∧
      s = a.planner.run d s₀ es

/-- What a node reaches is orderly. -/
theorem Reaches.orderly {a : Party d} {s : Schedule} (h : a.Reaches s) : a.planner.Orderly s := by
  obtain ⟨maxFrames, maxLinks, s₀, es, hlayOut, rfl⟩ := h
  exact (Planner.orderly_layOut hlayOut).run es

end Party

/-- Two schedules meet in a cell: the one transmits there and the other listens, with one channel
offset.  The slotframe has the same length in both, and each offers its link in just those slots
whose count leaves the timeslot by that length, on the same channel as the other. -/
def Meet (hopping : HoppingSequence) (cell : Cell) (s r : Schedule) : Prop :=
  ∃ l m length, s.link? cell.frame cell.timeslot = some l ∧
    r.link? cell.frame cell.timeslot = some m ∧
    l.options.tx = true ∧ m.options.rx = true ∧
    l.channelOffset = cell.channelOffset ∧ m.channelOffset = cell.channelOffset ∧
    s.length? cell.frame = some length ∧ r.length? cell.frame = some length ∧
    ∀ now : SlotNumber,
      ((cell.frame, l) ∈ s.current now ↔ now.toNat % length.toNat = cell.timeslot.toNat) ∧
      ((cell.frame, m) ∈ r.current now ↔ now.toNat % length.toNat = cell.timeslot.toNat) ∧
      hopping.channelAt now l.channelOffset = hopping.channelAt now m.channelOffset

namespace Planner

variable {d : Directory} {a b : Party d} {p : Planner} {s s' r r' : Schedule} {packet : Packet}
  {t now : SlotNumber} {cell : Cell}

/-- A use that is made leaves its direction in the cell, used now. -/
theorem kept_of_make {u : Use} (hs : s.WellFormed)
    (h : (p.make t (some u)).perform s = (s', .ok ())) :
    ∃ cell, p.plan.cell? u.owner = some cell ∧
      p.Kept t u.direction (s'.link? cell.frame cell.timeslot) ∧
      ∀ q, u.peer = some q → ∀ l ∈ s'.link? cell.frame cell.timeslot, l.peer = q := by
  obtain ⟨cell, hcell, hset⟩ := make_eq_ok hs h
  refine ⟨cell, hcell, ?_, fun q hq l hl => ?_⟩
  · rw [hset.link?_self]
    refine ⟨_, rfl, ?_, fun lease hlease => ?_⟩
    · rw [has_merged, (has_optionsFor p u.direction u.direction).2 rfl, Bool.or_true]
    · rw [last_of_stamped hlease, SlotNumber.elapsed_self]
      exact Nat.zero_le _
  · rw [hset.link?_self] at hl
    cases hl
    rw [hq]
    exact peer_merged q

/-- The sender holds the cell of the node that owns it, bound to the receiver. -/
theorem kept_of_sent (hs : a.planner.Orderly s) (hreceiver : packet.receiver = b.address)
    (hcontrol : packet.isControl = false)
    (h : (a.planner.sent d packet .delivered t).perform s = (s', .ok ())) :
    a.planner.Orderly s' ∧ ∃ cell,
      a.planner.plan.cell? (a.planner.cellOwner b.planner.index) = some cell ∧
      a.planner.Kept t .tx (s'.link? cell.frame cell.timeslot) ∧
      ∀ l ∈ s'.link? cell.frame cell.timeslot, l.peer = .unicast b.address := by
  have horderly := hs.perform (d := d) (.sent packet .delivered t)
  rw [Event.edit, h] at horderly
  refine ⟨horderly, ?_⟩
  have huse : (Event.sent packet .delivered t).use? a.planner d =
      some ⟨.tx, a.planner.cellOwner b.planner.index, some (.unicast b.address)⟩ := by
    simp only [Event.use?, hcontrol, hreceiver, b.indexOf?_address]
  rw [perform_sent hcontrol, huse] at h
  obtain ⟨cell, hcell, hkept, hpeer⟩ := kept_of_make (sweep_reworked hs.wellFormed).wellFormed h
  exact ⟨cell, hcell, hkept, hpeer _ rfl⟩

/-- The receiver listens in the same cell: in that of the sender, or for good in its own. -/
theorem kept_of_received (hr : b.planner.Orderly r) (hplan : b.planner.plan = a.planner.plan)
    (hsender : packet.sender = a.address) (hreceiver : packet.receiver = b.address)
    (hcontrol : packet.isControl = false)
    (h : (b.planner.received d packet t).perform r = (r', .ok ()))
    (hcell : a.planner.plan.cell? (a.planner.cellOwner b.planner.index) = some cell) :
    b.planner.Orderly r' ∧ b.planner.Kept t .rx (r'.link? cell.frame cell.timeslot) := by
  have horderly := hr.perform (d := d) (.received packet t)
  rw [Event.edit, h] at horderly
  refine ⟨horderly, ?_⟩
  unfold cellOwner at hcell
  cases hownership : a.planner.plan.ownership with
  | receiver =>
    rw [hownership, ← hplan] at hcell
    rw [← hplan] at hownership
    obtain ⟨l, hl, hlease, hrx⟩ := horderly.own_listens hownership hcell
    refine ⟨l, hl, hrx, ?_⟩
    rw [hlease]
    exact nofun
  | sender =>
    rw [hownership] at hcell
    have huse : (Event.received packet t).use? b.planner d =
        some ⟨.rx, a.planner.index, none⟩ := by
      simp only [Event.use?, hcontrol, hsender, hreceiver, a.indexOf?_address, b.idOf?_address,
        hplan, hownership]
    rw [perform_received hcontrol, huse] at h
    obtain ⟨cell', hcell', hkept, -⟩ := kept_of_make (sweep_reworked hr.wellFormed).wellFormed h
    rw [hplan, hcell] at hcell'
    cases hcell'
    exact hkept

/-- Orderly schedules of one plan meet in a cell that the one keeps to transmit and the other to
listen. -/
theorem meet_of_kept (hopping : HoppingSequence) (hs : a.planner.Orderly s)
    (hr : b.planner.Orderly r) (hplan : b.planner.plan = a.planner.plan) {owner : UInt16}
    (hcell : a.planner.plan.cell? owner = some cell)
    (htx : a.planner.Kept t .tx (s.link? cell.frame cell.timeslot))
    (hrx : b.planner.Kept t .rx (r.link? cell.frame cell.timeslot)) : Meet hopping cell s r := by
  obtain ⟨l, hl, hltx, -⟩ := htx
  obtain ⟨m, hm, hmrx, -⟩ := hrx
  obtain ⟨hframe, hoffset⟩ := CellPlan.cell?_eq_some hcell
  obtain ⟨length, hlength⟩ := Schedule.exists_length? hl
  have hlength' : r.length? cell.frame = some length := by
    rw [hr.length?_eq (hplan ▸ hframe), hplan, ← hs.length?_eq hframe, hlength]
  have hloffset : l.channelOffset = cell.channelOffset := by rw [hs.channelOffset_eq hl, hoffset]
  have hmoffset : m.channelOffset = cell.channelOffset := by rw [hr.channelOffset_eq hm, hoffset]
  refine ⟨l, m, length, hl, hm, hltx, hmrx, hloffset, hmoffset, hlength, hlength',
    fun now => ⟨?_, ?_, ?_⟩⟩
  · exact Schedule.mem_current_iff_mod hs.wellFormed hlength hl
  · exact Schedule.mem_current_iff_mod hr.wellFormed hlength' hm
  · rw [hloffset, hmoffset]

/-- Two nodes of one plan that exchange a packet meet in the cell of the node that owns it.  The
sender's link is bound to the receiver, and for the lifetime of leases after the packet the two
schedules meet in the cell, whatever events the two nodes have. -/
theorem rendezvous (a b : Party d) (hplan : b.planner.plan = a.planner.plan)
    (hlifetime : b.planner.lifetime = a.planner.lifetime)
    (hbound : a.planner.lifetime.toNat < 2 ^ 31) (hopping : HoppingSequence)
    (hs : a.Reaches s) (hr : b.Reaches r)
    (hsender : packet.sender = a.address) (hreceiver : packet.receiver = b.address)
    (hcontrol : packet.isControl = false)
    (hsent : (a.planner.sent d packet .delivered t).perform s = (s', .ok ()))
    (hreceived : (b.planner.received d packet t).perform r = (r', .ok ())) :
    ∃ cell, a.planner.plan.cell? (a.planner.cellOwner b.planner.index) = some cell ∧
      (∃ l, s'.link? cell.frame cell.timeslot = some l ∧ l.peer = .unicast b.address) ∧
      ∀ es es' : List Event, a.planner.Within t es → b.planner.Within t es' →
        Meet hopping cell (a.planner.run d s' es) (b.planner.run d r' es') := by
  obtain ⟨hs', cell, hcell, htx, hpeer⟩ := kept_of_sent hs.orderly hreceiver hcontrol hsent
  obtain ⟨hr', hrx⟩ :=
    kept_of_received hr.orderly hplan hsender hreceiver hcontrol hreceived hcell
  have hframe := (CellPlan.cell?_eq_some hcell).1
  refine ⟨cell, hcell, ?_, fun es es' hes hes' => ?_⟩
  · obtain ⟨l, hl, -, -⟩ := htx
    exact ⟨l, hl, hpeer l hl⟩
  · refine meet_of_kept (t := t) hopping (hs'.run es) (hr'.run es') hplan hcell ?_ ?_
    · exact kept_run hbound hframe hs'.wellFormed htx hes
    · exact kept_run (hlifetime ▸ hbound) (hplan ▸ hframe) hr'.wellFormed hrx hes'

/-! ## Two nodes

A deployment of two nodes whose indices are shuffled, with unicast slotframes so short that one of
the two cells is in the second, and leases of two slots.  The packet is exchanged in the last slot
before the slot numbers wrap. -/

/-- The deployment. -/
def pair : Directory := ⟨[(7, .ofLastByte 1), (9, .ofLastByte 2)], some ⟨3, 7⟩⟩

/-- The plan that both nodes follow. -/
def briefPlan : CellPlan := { CellPlan.standard with unicastPeriod := 2, spillPeriod := some 5 }

/-- The node whose cell is in the first slotframe. -/
def near : Party pair := ⟨⟨briefPlan, 0, 2⟩, 7, .ofLastByte 1, rfl, rfl⟩

/-- The node whose cell is in the second slotframe. -/
def far : Party pair := ⟨⟨briefPlan, 3, 2⟩, 9, .ofLastByte 2, rfl, rfl⟩

/-- A packet of the far node to the near one. -/
def greeting : Packet := ⟨.ofLastByte 2, .ofLastByte 1, false⟩

/-- The last slot before the slot numbers wrap. -/
def lastSlot : SlotNumber := .ofNat (2 ^ 40 - 1)

/-- What a node's schedule is after its layout and these events. -/
def historyOf (a : Party pair) (es : List Event) : Schedule :=
  a.planner.run pair (a.planner.layOut.perform (.empty 4 8)).1 es

/-- A history is reached if the layout succeeds. -/
theorem reaches_historyOf (a : Party pair) (es : List Event)
    (h : (a.planner.layOut.perform (.empty 4 8)).2 = .ok ()) : a.Reaches (historyOf a es) :=
  ⟨4, 8, _, es, Prod.ext rfl h, rfl⟩

/-- The far node has a time source when it sends. -/
def farHistory : Schedule := historyOf far [.follow none (some near.address)]

/-- The near node heard of the far one long ago. -/
def nearHistory : Schedule := historyOf near [.received greeting .zero, .expire (.ofNat 9)]

/-- Two slots after the packet the two still meet. -/
theorem rendezvous_pair :
    ∃ s' r',
      (far.planner.sent pair greeting .delivered lastSlot).perform farHistory = (s', .ok ()) ∧
      (near.planner.received pair greeting lastSlot).perform nearHistory = (r', .ok ()) ∧
      ∃ cell, Meet .standard cell
        (far.planner.run pair s' [.expire (lastSlot.advance 2)])
        (near.planner.run pair r' [.join (lastSlot.advance 1), .expire (lastSlot.advance 2)]) := by
  have hsent : ((far.planner.sent pair greeting .delivered lastSlot).perform farHistory).2 =
      .ok () := by decide +kernel
  have hreceived : ((near.planner.received pair greeting lastSlot).perform nearHistory).2 =
      .ok () := by decide +kernel
  refine ⟨_, _, Prod.ext rfl hsent, Prod.ext rfl hreceived, ?_⟩
  obtain ⟨cell, -, -, hmeet⟩ := rendezvous far near rfl rfl (by decide) .standard
    (reaches_historyOf far [.follow none (some near.address)] rfl)
    (reaches_historyOf near [.received greeting .zero, .expire (.ofNat 9)] rfl)
    rfl rfl rfl (Prod.ext rfl hsent) (Prod.ext rfl hreceived)
  refine ⟨cell, hmeet _ _ ?_ ?_⟩
  · rintro e he now hnow
    rw [List.mem_singleton.1 he] at hnow
    cases hnow
    decide
  · rintro e he now hnow
    rcases List.mem_cons.1 he with rfl | he
    · cases hnow
      decide
    · rw [List.mem_singleton.1 he] at hnow
      cases hnow
      decide

end Planner

end SlottedMesh
