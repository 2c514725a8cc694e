import SlottedMesh.Proofs.Cells.Packets

/-!
# Several uses of one cell

Uses of a cell in one slot, all transmissions among them to one neighbour, come to the same whatever
their order and however often each is made: what they make of the link is told by the set of their
directions (`combined`).  A link that the first of them makes is as if a bare one with a fresh lease
had been there before (`merged_none`).

A sweep in the same slot finds nothing to do where one was made before: the links that it leaves
are `Settled` in that slot, and a use leaves them so (`settled_merged`).
-/

namespace SlottedMesh.Planner

open Schedule

variable {p : Planner} {a : Address} {now : SlotNumber} {cell : Cell} {added added' : Link.Options}
  {peer peer' : Option Link.Peer} {handle handle' : UInt32} {l l' : Link} {s : Schedule}
  {lease : Link.Lease} {direction : Direction} {directions : Finset Direction}

/-! ## Joining twice -/

/-- It does not matter which options are put together first. -/
theorem union_assoc (x y z : Link.Options) : (x.union y).union z = x.union (y.union z) := by
  simp only [Link.Options.union, Bool.or_assoc]

/-- Options that take up two others take up the first. -/
theorem union_eq_of_union_eq {x y z : Link.Options} (h : x = x.union (y.union z)) :
    x = x.union y := by
  have htx := congrArg Link.Options.tx h
  have hrx := congrArg Link.Options.rx h
  have hshared := congrArg Link.Options.shared h
  obtain ⟨tx, rx, shared⟩ := x
  simp only [Link.Options.union, Link.Options.mk.injEq] at *
  grind

/-- Two bindings are one, unless they are to two neighbours. -/
theorem getD_or (hpeer : ∀ q ∈ peer, ∀ q' ∈ peer', q = q') (q : Link.Peer) :
    (peer.or peer').getD q = peer'.getD (peer.getD q) := by
  rcases peer with _ | r
  · rfl
  · rcases peer' with _ | r'
    · rfl
    · exact hpeer r rfl r' rfl

/-- To add options and a peer in two steps is to add them in one, unless there are two peers. -/
theorem joined_joined (hpeer : ∀ q ∈ peer, ∀ q' ∈ peer', q = q') :
    joined cell added' peer' handle' (some (joined cell added peer handle (some l))) =
      joined cell (added.union added') (peer.or peer') handle (some l) := by
  have hoptions := union_assoc l.options added added'
  have hget := getD_or hpeer l.peer
  by_cases h : (l.options, l.peer) = (l.options.union added, peer.getD l.peer)
  · -- the first step changes nothing, and the second is all
    obtain ⟨hold, hbound⟩ := Prod.mk.inj h
    rw [← hold] at hoptions
    rw [← hbound] at hget
    rw [joined_of_eq h]
    by_cases h' : (l.options, l.peer) = (l.options.union added', peer'.getD l.peer)
    · rw [joined_of_eq h', joined_of_eq (by rw [← hoptions, hget, ← h'])]
    · rw [joined_of_ne h', joined_of_ne (by rwa [← hoptions, hget]), ← hoptions, hget]
  · -- the first step puts the link, and so does the whole, whether the second does or not
    have hput : ¬(l.options, l.peer) =
        (l.options.union (added.union added'), (peer.or peer').getD l.peer) := by
      intro heq
      obtain ⟨hold, hbound⟩ := Prod.mk.inj heq
      refine h (Prod.ext (union_eq_of_union_eq hold) ?_)
      rcases peer with _ | r
      · rfl
      · exact hbound
    rw [joined_of_ne h, joined_of_ne hput, ← hoptions, hget]
    by_cases h' : (l.options.union added, peer.getD l.peer) =
        ((l.options.union added).union added', peer'.getD (peer.getD l.peer))
    · rw [joined_of_eq h']
      obtain ⟨hsame, hbound⟩ := Prod.mk.inj h'
      rw [← hsame, ← hbound]
    · rw [joined_of_ne h']

/-- What options and a peer make of a link does not depend on its lease. -/
theorem joined_lease (lease : Option Link.Lease) :
    joined cell added peer handle (some { l with lease }) =
      { joined cell added peer handle' (some l) with lease } := by
  by_cases h : (l.options, l.peer) = (l.options.union added, peer.getD l.peer)
  · rw [joined_of_eq h]
    exact joined_of_eq h
  · rw [joined_of_ne h]
    exact joined_of_ne h

/-- Nor on its handle. -/
theorem joined_handle (name : UInt32) :
    joined cell added peer handle (some { l with handle := name }) =
      { joined cell added peer handle' (some l) with handle := name } := by
  by_cases h : (l.options, l.peer) = (l.options.union added, peer.getD l.peer)
  · rw [joined_of_eq h]
    exact joined_of_eq h
  · rw [joined_of_ne h]
    exact joined_of_ne h

/-! ## Uses in one slot -/

/-- The options that uses in these directions add. -/
def optionsOf (p : Planner) (directions : Finset Direction) : Link.Options :=
  ⟨.tx ∈ directions, .rx ∈ directions, .tx ∈ directions && p.plan.sharesLentCells⟩

/-- The neighbour that uses in these directions bind a link to, where packets are delivered to
`a`. -/
def peerOf (a : Address) (directions : Finset Direction) : Option Link.Peer :=
  if .tx ∈ directions then some (.unicast a) else none

/-- A lease after uses in these directions. -/
def stampedAll (directions : Finset Direction) (now : SlotNumber) (lease : Link.Lease) :
    Link.Lease :=
  ⟨if .tx ∈ directions then now else lease.lastTx, if .rx ∈ directions then now else lease.lastRx⟩

/-- What uses in these directions make of a link. -/
def combined (p : Planner) (a : Address) (now : SlotNumber) (cell : Cell)
    (directions : Finset Direction) (l : Link) : Link :=
  { joined cell (p.optionsOf directions) (peerOf a directions) l.handle (some l) with
    lease := l.lease.map (stampedAll directions now) }

/-- A use in one direction adds what the direction needs. -/
theorem optionsOf_singleton (p : Planner) (direction : Direction) :
    p.optionsOf {direction} = p.optionsFor direction := by
  cases direction with
  | tx =>
    show Link.Options.mk true false p.plan.sharesLentCells = p.lentOptions
    unfold lentOptions
    cases p.plan.sharesLentCells <;> rfl
  | rx => rfl

/-- A direction more adds its options. -/
theorem optionsOf_insert (p : Planner) (direction : Direction) (directions : Finset Direction) :
    p.optionsOf (insert direction directions) =
      (p.optionsOf directions).union (p.optionsOf {direction}) := by
  rcases direction with _ | _ <;> rcases hshares : p.plan.sharesLentCells with _ | _ <;>
    simp [optionsOf, Link.Options.union, hshares]

/-- A direction more binds the link if it transmits. -/
theorem peerOf_insert (a : Address) (direction : Direction) (directions : Finset Direction) :
    peerOf a (insert direction directions) = (peerOf a directions).or (peerOf a {direction}) := by
  unfold peerOf
  cases direction <;> by_cases h : Direction.tx ∈ directions <;> simp [h]

/-- A link is bound to nobody else. -/
theorem eq_of_mem_peerOf {q : Link.Peer} (h : q ∈ peerOf a directions) : q = .unicast a := by
  unfold peerOf at h
  split at h
  · exact (Option.some.inj h).symm
  · cases h

/-- A direction more is one stamp more. -/
theorem stampedAll_insert (direction : Direction) (directions : Finset Direction)
    (lease : Link.Lease) :
    stampedAll (insert direction directions) now lease =
      (stampedAll directions now lease).stamp direction now := by
  cases direction <;> simp [stampedAll, Link.Lease.stamp]

/-- A use in one direction is one stamp. -/
theorem stampedAll_singleton (direction : Direction) (lease : Link.Lease) :
    stampedAll {direction} now lease = lease.stamp direction now := by
  cases direction <;> rfl

/-- No uses make nothing of a link. -/
theorem combined_empty (l : Link) : p.combined a now cell ∅ l = l := by
  have hsame : (l.options, l.peer) =
      (l.options.union (p.optionsOf ∅), (peerOf a ∅).getD l.peer) := by
    obtain ⟨⟨⟨tx, rx, shared⟩, -, -, -⟩, -, -, -, -⟩ := l
    simp [optionsOf, peerOf, Link.Options.union]
  have hlease : l.lease.map (stampedAll ∅ now) = l.lease := by
    rcases l.lease with _ | lease <;> rfl
  unfold combined
  rw [joined_of_eq hsame, hlease]

/-- A merge into a link is one use of it. -/
theorem merged_some (handle : UInt32) (l : Link) :
    merged cell (p.optionsFor direction) (peerOf a {direction}) direction now handle (some l) =
      p.combined a now cell {direction} l := by
  have hlease : stamped direction now (some l) = l.lease.map (stampedAll {direction} now) := by
    simp only [stamped, funext (stampedAll_singleton direction)]
  unfold combined
  rw [optionsOf_singleton, ← hlease]
  rfl

/-- One more use. -/
theorem combined_combined (l : Link) :
    p.combined a now cell {direction} (p.combined a now cell directions l) =
      p.combined a now cell (insert direction directions) l := by
  have hpeer : ∀ q ∈ peerOf a directions, ∀ q' ∈ peerOf a {direction}, q = q' := by
    intro q hq q' hq'
    rw [eq_of_mem_peerOf hq, eq_of_mem_peerOf hq']
  have hlease : (l.lease.map (stampedAll directions now)).map (stampedAll {direction} now) =
      l.lease.map (stampedAll (insert direction directions) now) := by
    rw [Option.map_map]
    congr 1
    funext lease
    exact (stampedAll_singleton direction _).trans
      (stampedAll_insert direction directions lease).symm
  unfold combined
  rw [@joined_lease cell _ _ _ l.handle, joined_joined hpeer, ← optionsOf_insert, ← peerOf_insert,
    hlease]

/-- What uses make of a link does not depend on its handle, which it keeps. -/
theorem combined_withHandle (handle : UInt32) (l : Link) :
    p.combined a now cell directions { l with handle } =
      { p.combined a now cell directions l with handle } := by
  unfold combined
  rw [@joined_handle cell _ _ _ l.handle]

/-- Uses leave the handle. -/
theorem handle_combined (l : Link) : (p.combined a now cell directions l).handle = l.handle := by
  have hkept := congrArg Link.handle (@combined_withHandle p a now cell directions l.handle l)
  exact hkept

/-! ## The first use of a vacant cell -/

/-- A link without options that takes a cell and has a fresh lease. -/
def bare (cell : Cell) (now : SlotNumber) (handle : UInt32) : Link :=
  { options := .none, kind := .normal, peer := .unbound, channelOffset := cell.channelOffset,
    handle, frame := cell.frame, timeslot := cell.timeslot, lease := some (.fresh now) }

/-- A use of a vacant cell makes the link that it makes of a bare one. -/
theorem merged_none (added : Link.Options) (peer : Option Link.Peer) (direction : Direction) :
    merged cell added peer direction now handle none =
      merged cell added peer direction now handle (some (bare cell now handle)) := by
  have hlease : stamped direction now (some (bare cell now handle)) = some (.fresh now) := by
    cases direction <;> rfl
  unfold merged
  rw [hlease]
  by_cases h : (Link.Options.none, Link.Peer.unbound) = (added, peer.getD .unbound)
  · obtain ⟨rfl, hbound⟩ := Prod.mk.inj h
    have hjoined : joined cell .none peer handle (some (bare cell now handle)) =
        bare cell now handle := joined_of_eq h
    rw [hjoined]
    unfold joined
    rw [Option.elim_none, Option.elim_none, ← hbound]
    rfl
  · have hjoined : joined cell added peer handle (some (bare cell now handle)) =
        { bare cell now handle with toAttributes :=
          ⟨added, .normal, peer.getD .unbound, cell.channelOffset⟩ } := joined_of_ne h
    rw [hjoined]
    rfl

/-! ## Links that a sweep leaves -/

/-- A sweep in slot `now` would leave the link as it is. -/
def Settled (p : Planner) (now : SlotNumber) (l : Link) : Prop := (p.verdict now l).leave l = some l

/-- What was used now is not stale. -/
theorem isStale_self (p : Planner) (now : SlotNumber) : p.isStale now now = false := by
  have hsince := @SlotNumber.since_eq_elapsed now now (by rw [SlotNumber.elapsed_self]; decide)
  rw [SlotNumber.elapsed_self] at hsince
  simp [isStale, hsince]

/-- A lease that starts now is stale in no direction. -/
theorem stale_fresh (p : Planner) (now : SlotNumber) : p.stale now (.fresh now) = ∅ := by
  rw [Finset.eq_empty_iff_forall_notMem]
  intro d hd
  rw [mem_stale, Link.Lease.last_fresh, isStale_self] at hd
  exact Bool.false_ne_true hd

/-- A use makes its own direction live. -/
theorem stale_stamp (p : Planner) (now : SlotNumber) (lease : Link.Lease) (direction : Direction) :
    p.stale now (lease.stamp direction now) = p.stale now lease \ {direction} := by
  ext d
  rw [Finset.mem_sdiff, mem_stale, mem_stale, Finset.mem_singleton]
  by_cases hd : d = direction
  · rw [hd, last_stamp_self, isStale_self]
    simp
  · rw [last_stamp_of_ne lease hd]
    simp [hd]

/-- A sweep leaves the link of a first use as it is. -/
theorem settled_bare (p : Planner) (cell : Cell) (now : SlotNumber) (handle : UInt32) :
    p.Settled now (bare cell now handle) := by
  unfold Settled
  rw [@leave_verdict p now (bare cell now handle) (.fresh now) rfl, stale_fresh, Link.pruned_empty]

/-- What a sweep leaves, another in the same slot leaves as it is. -/
theorem settled_of_leave (h : (p.verdict now l).leave l = some l') : p.Settled now l' := by
  have htwice := @leave_bind_leave p now now l fun _ _ => Finset.Subset.refl _
  rw [h, Option.bind_some] at htwice
  exact htwice

/-- A link that is settled stays so when it is used. -/
theorem settled_merged (h : p.Settled now l) (peer : Option Link.Peer) (handle : UInt32) :
    p.Settled now
      (merged cell (p.optionsFor direction) peer direction now handle (some l)) := by
  unfold Settled at h ⊢
  rcases hlease : l.lease with _ | lease
  · refine leave_of_unleased ?_
    rw [lease_merged, stamped, hlease]
    rfl
  · have hstamped : (merged cell (p.optionsFor direction) peer direction now handle
        (some l)).lease = some (lease.stamp direction now) := by
      rw [lease_merged, stamped, hlease]
      rfl
    rw [leave_verdict hlease] at h
    rw [leave_verdict hstamped, stale_stamp]
    apply Link.pruned_of_disjoint
    · intro huniv
      have hmem : direction ∈ p.stale now lease \ {direction} := huniv ▸ Finset.mem_univ direction
      exact (Finset.mem_sdiff.1 hmem).2 (Finset.mem_singleton_self direction)
    · rw [Finset.disjoint_left]
      intro d hd hstale
      obtain ⟨hstale, hne⟩ := Finset.mem_sdiff.1 hstale
      rw [mem_directions, has_merged, Option.any_some, Bool.or_eq_true, has_optionsFor] at hd
      obtain hold | hself := hd
      · exact Finset.disjoint_left.1 (Link.disjoint_of_pruned h) (mem_directions.2 hold) hstale
      · exact hne (Finset.mem_singleton.2 hself)

/-- A sweep changes nothing where all links are settled. -/
theorem sweep_eq_self (hs : s.WellFormed)
    (h : ∀ g ∈ p.plan.unicastFrames, ∀ t l, s.link? g t = some l → p.Settled now l) :
    (p.sweep now s).1 = s :=
  (sweep_reworked hs).eq (reworked_of_all_kept hs fun g t l hg => h g hg t l)

end SlottedMesh.Planner
