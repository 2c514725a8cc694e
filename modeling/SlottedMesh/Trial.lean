import SlottedMesh.Station.Events

/-!
# Trials

A trial runs one node slot by slot among two made-up neighbours: a parent, which is also its time
source, and a child that sends to it.  In the first half of the slots there is traffic; in the
second half there is none, so that leases run out.  Every fifth transmission in a lent cell is lost.
-/

namespace SlottedMesh

/-- A trial on its way. -/
structure Trial where
  /-- The node. -/
  station : Station
  /-- The parent. -/
  parent : Address
  /-- The child. -/
  child : Address
  /-- How many transmissions there were in lent cells. -/
  attempts : Nat
  /-- How many transmissions there were. -/
  txCount : Nat
  /-- How many packets were received. -/
  rxCount : Nat

namespace Trial

/-- The address of the neighbour whose id is `distance` less than that of the node, or more if there
is none such.  Only the last byte of an address tells neighbours apart, so larger ids share one. -/
def neighborAddress (id distance : UInt16) : Address :=
  let other := if distance < id then id - distance else id + distance
  .ofLastByte (.ofNat (min other.toNat 255))

/-- A node that has joined, follows its parent's time and has heard both neighbours. -/
def start (settings : Settings) : Except BringUpError Trial := do
  let station ← Station.bringUp settings .quiet
  let parent := neighborAddress settings.nodeId 1
  let child := neighborAddress settings.nodeId 2
  let station := (station.join .zero).followTimeSource (some parent)
  let station := (station.heard parent 1 0).heard child 3 256
  return ⟨station, parent, child, 0, 0, 0⟩

/-- How many transmissions in lent cells there are to one that is lost. -/
def lossPeriod : Nat := 5

/-- Transmit in a lent cell. -/
def transmitTo (t : Trial) (receiver : Address) : Trial :=
  let attempts := t.attempts + 1
  let outcome := if attempts % lossPeriod = 0 then Outcome.unacknowledged else .delivered
  { t with attempts, station := t.station.transmitted receiver outcome 1 false
           txCount := t.txCount + 1 }

/-- Transmit to the parent in a shared cell; that is how it gets a cell of its own. -/
def transmitShared (t : Trial) : Trial :=
  { t with station := t.station.transmitted t.parent .delivered 1 false, txCount := t.txCount + 1 }

/-- Receive a packet from the child. -/
def receive (t : Trial) : Trial :=
  { t with station := t.station.received ⟨t.child, t.station.address, false⟩
           rxCount := t.rxCount + 1 }

/-- Use a link in a slot: to transmit if it is lent, or in every seventh slot if it is shared; to
receive in every third slot. -/
def useLink (slot : Nat) (t : Trial) (link : Link) : Trial :=
  let t := match link.options.tx, link.peer with
    | true, .unicast receiver => t.transmitTo receiver
    | true, _ => if link.options.shared ∧ slot % 7 = 0 then t.transmitShared else t
    | false, _ => t
  if link.options.rx ∧ slot % 3 = 0 then t.receive else t

/-- Whether there is traffic in a slot of a trial of `slots` slots: in the first half of them. -/
def hasTraffic (slots slot : Nat) : Bool := slot < slots / 2

/-- One slot of a trial of `slots` slots: the radio is on if a link is, and the links that were on
at its beginning are used as long as there is traffic. -/
def step (slots : Nat) (t : Trial) (slot : Nat) : Trial :=
  let t := { t with station := t.station.tick (.ofNat slot) }
  match t.station.currentLinks.map (·.2) with
  | [] => { t with station := t.station.requestRadio .off }
  | links =>
    let t := { t with station := t.station.requestRadio .on }
    if hasTraffic slots slot then links.foldl (useLink slot) t else t

/-- The slots from `slot` on, `left` of them, in a trial of `slots` slots. -/
def runFrom (slots : Nat) : (left slot : Nat) → Trial → Trial
  | 0, _, t => t
  | left + 1, slot, t => runFrom slots left (slot + 1) (t.step slots slot)

/-- A trial of so many slots. -/
def run (settings : Settings) (slots : Nat) : Except BringUpError Trial :=
  return runFrom slots slots 0 (← start settings)

/-! ## What is found -/

/-- Something that is found when a trial is over. -/
inductive Finding where
  /-- How many transmissions and receptions there were, where the node has come to in the routing
  graph and how many links it has. -/
  | summary (slots txCount rxCount : Nat) (rank : UInt16) (parent : Option Address) (links : Nat)
  /-- A link that is left, in the slotframe with this id. -/
  | link (frame : UInt16) (link : Link)
  /-- What is known of the link to the made-up parent. -/
  | parentLink (metric txCount : UInt16)

/-- What is found when a trial of `slots` slots is over: the summary, the links by slotframe and
timeslot, and what is known of the parent. -/
def findings (t : Trial) (slots : Nat) : List Finding :=
  let s := t.station
  let links := s.schedule.frames.values.flatMap fun f => f.links.values.map (.link f.id)
  let parent := (s.neighbors.get? t.parent).toList.map fun n =>
    Finding.parentLink n.linkMetric n.txCount
  .summary slots t.txCount t.rxCount s.router.dag.rank s.router.dag.parent s.schedule.linkCount
    :: links ++ parent

/-- The finding in words. -/
def Finding.text : Finding → String
  | .summary slots txCount rxCount rank parent links =>
    "simulation finished slots=" ++ toString slots ++ " tx_count=" ++ toString txCount
      ++ " rx_count=" ++ toString rxCount ++ " rank=" ++ toString rank
      ++ " parent=" ++ (parent.elim "none" (·.text)) ++ " links=" ++ toString links
  | .link frame l =>
    "link frame=" ++ toString frame ++ " timeslot=" ++ toString l.timeslot
      ++ " channel_offset=" ++ toString l.channelOffset ++ " options=" ++ l.options.text
      ++ " peer=" ++ l.peer.text ++ " leased=" ++ toString l.lease.isSome
  | .parentLink metric txCount =>
    "parent link statistics link_metric=" ++ toString metric ++ " tx_count=" ++ toString txCount

end Trial

end SlottedMesh
