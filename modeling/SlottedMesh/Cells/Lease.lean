import SlottedMesh.Cells.Planner

/-!
# Running out of leases

A direction of a lent cell is stale when it was last used longer ago than the lifetime of leases.  A
sweep takes out the links of which no live direction is left, and takes the stale direction from the
others.  Joining a network starts every lease afresh.
-/

namespace SlottedMesh

/-- What a sweep does to a link. -/
inductive Verdict where
  /-- Nothing. -/
  | keep
  /-- The link is taken out. -/
  | remove
  /-- The link is left with these options and this peer. -/
  | reduce (options : Link.Options) (peer : Link.Peer)
deriving DecidableEq

namespace Planner

/-- Whether what was last used in slot `last` is stale in slot `now`. -/
def isStale (p : Planner) (now last : SlotNumber) : Bool := p.lifetime.toNat < now.since last

/-- Leave a link with these options and this peer, or take it out if neither direction is left. -/
def reduceTo (options : Link.Options) (peer : Link.Peer) : Verdict :=
  if options.tx || options.rx then .reduce options peer else .remove

/-- What a sweep in slot `now` does to a link.  A link that may no longer transmit is shared no more
and is kept for no neighbour. -/
def verdict (p : Planner) (now : SlotNumber) (link : Link) : Verdict :=
  match link.lease with
  | none => .keep
  | some lease =>
    match p.isStale now lease.lastTx, p.isStale now lease.lastRx with
    | true, true => .remove
    | true, false =>
      if link.options.tx then reduceTo (link.options.without .txShared) .unbound else .keep
    | false, true =>
      if link.options.rx then reduceTo (link.options.without .rxOnly) link.peer else .keep
    | false, false => .keep

/-- The schedule that an update leaves, and the count, which goes up if the update got through. -/
def tally {α : Type} (count : Nat) : Schedule × Except ScheduleError α → Schedule × Nat
  | (s, .ok _) => (s, count + 1)
  | (s, .error _) => (s, count)

/-- Carry out the verdict on the link at a timeslot; the count goes up if it changes something. -/
def carryOut (frame : UInt16) (link : Link) (verdict : Verdict) (s : Schedule) (count : Nat) :
    Schedule × Nat :=
  match verdict with
  | .keep => (s, count)
  | .remove => tally count ((Update.removeLinkAt frame link.timeslot).perform s)
  | .reduce options peer =>
    tally count
      ((Update.putLink frame link.timeslot ⟨options, .normal, peer, link.channelOffset⟩).perform s)

/-- A link that is taken out is counted if there is a slotframe to take it from. -/
theorem carryOut_remove (frame : UInt16) (link : Link) (s : Schedule) (count : Nat) :
    carryOut frame link .remove s count =
      tally count (s.settle (s.removeLinkAt frame link.timeslot)) :=
  congrArg (tally count) ((Update.atomic_removeLinkAt _ _).perform_eq s)

/-- A link that is reduced is counted if the schedule takes what is left of it. -/
theorem carryOut_reduce (frame : UInt16) (link : Link) (options : Link.Options) (peer : Link.Peer)
    (s : Schedule) (count : Nat) :
    carryOut frame link (.reduce options peer) s count =
      tally count (s.settle
        (s.putLink frame link.timeslot ⟨options, .normal, peer, link.channelOffset⟩)) :=
  congrArg (tally count) ((Update.atomic_putLink _ _ _).perform_eq s)

/-- Sweep one slotframe: judge all its links as they are, then carry out the verdicts. -/
def sweepFrame (p : Planner) (now : SlotNumber) (s : Schedule) (count : Nat) (frame : UInt16) :
    Schedule × Nat :=
  match s.frame? frame with
  | none => (s, count)
  | some f =>
    f.links.values.foldl (fun (s, count) link => carryOut frame link (p.verdict now link) s count)
      (s, count)

/-- Sweep the unicast slotframes in slot `now`; the number says how many links were changed. -/
def sweep (p : Planner) (now : SlotNumber) (s : Schedule) : Schedule × Nat :=
  p.plan.unicastFrames.foldl (fun (s, count) frame => p.sweepFrame now s count frame) (s, 0)

/-- Start the lease of a link afresh, if it has one. -/
def renew (now : SlotNumber) (s : Schedule) (link : Link) : Schedule :=
  match link.lease with
  | none => s
  | some _ => s.setLease link.frame link.timeslot (some (.fresh now))

/-- Start every lease afresh in slot `now`. -/
def renewAll (p : Planner) (now : SlotNumber) (s : Schedule) : Schedule :=
  p.plan.unicastFrames.foldl
    (fun s frame => match s.frame? frame with
      | none => s
      | some f => f.links.values.foldl (renew now) s) s

end Planner

end SlottedMesh
