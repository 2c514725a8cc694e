import SlottedMesh.Proofs.Cells.Sweep

/-!
# Merging the use of a cell

A packet that is exchanged adds options to the link at a cell and notes the use in its lease.
Either the schedule has no room for a new link and stays as it was, or the cell holds `merged` of
what it held, and all else is as it was (`perform_merge`).  The link that results has the channel
offset of the cell if what it replaces had it, the peer of the use if the use has one, and in its
lease the slot of the use; the other direction is as it was (`last_of_merged`).
-/

namespace SlottedMesh.Planner

open Schedule

/-- What options and peer are added to a link gives: the link itself if it has them already. -/
def joined (cell : Cell) (added : Link.Options) (peer : Option Link.Peer) (handle : UInt32)
    (o : Option Link) : Link :=
  let options := o.elim added (·.options.union added)
  let peer := peer.getD (o.elim .unbound (·.peer))
  let put := placed cell.frame cell.timeslot handle ⟨options, .normal, peer, cell.channelOffset⟩ o
  match o with
  | some old => if (old.options, old.peer) = (options, peer) then old else put
  | none => put

/-- The lease after a use: a new link gets a fresh one, and one that is there is stamped. -/
def stamped (direction : Direction) (now : SlotNumber) : Option Link → Option Link.Lease
  | some old => old.lease.map (·.stamp direction now)
  | none => some (.fresh now)

/-- What a merge makes of what was at a cell; a new link gets this handle. -/
def merged (cell : Cell) (added : Link.Options) (peer : Option Link.Peer) (direction : Direction)
    (now : SlotNumber) (handle : UInt32) (o : Option Link) : Link :=
  { joined cell added peer handle o with lease := stamped direction now o }

variable {cell : Cell} {added : Link.Options} {peer : Option Link.Peer} {direction : Direction}
  {now : SlotNumber} {handle : UInt32} {o : Option Link} {s s' : Schedule}

/-! ## The merged link -/

/-- A use adds its options to those that are there. -/
theorem options_merged :
    (merged cell added peer direction now handle o).options =
      o.elim added (·.options.union added) := by
  cases o with
  | none => rfl
  | some old =>
    show (if _ = _ then old else _).options = old.options.union added
    split
    · rename_i hsame
      exact (Prod.mk.inj hsame).1
    · rfl

/-- Both what was there and what is added is in the options. -/
theorem has_merged (d : Direction) :
    (merged cell added peer direction now handle o).options.has d =
      (o.any (·.options.has d) || added.has d) := by
  rw [options_merged]
  cases o with
  | none => rfl
  | some old => cases d <;> rfl

/-- A use with a peer binds the link to it. -/
theorem peer_merged (q : Link.Peer) :
    (merged cell added (some q) direction now handle o).peer = q := by
  cases o with
  | none => rfl
  | some old =>
    show (if _ = _ then old else _).peer = q
    split
    · rename_i hsame
      exact (Prod.mk.inj hsame).2
    · rfl

/-- The channel offset is that of the cell, if the link that was there had it. -/
theorem channelOffset_merged (h : ∀ old ∈ o, old.channelOffset = cell.channelOffset) :
    (merged cell added peer direction now handle o).channelOffset = cell.channelOffset := by
  cases o with
  | none => rfl
  | some old =>
    show (if _ = _ then old else _).channelOffset = cell.channelOffset
    split
    · exact h old rfl
    · rfl

/-- A use stamps the lease that is there. -/
theorem lease_merged :
    (merged cell added peer direction now handle o).lease = stamped direction now o := rfl

/-- Putting a link leaves the lease of the one that is there. -/
theorem lease_joined (old : Link) :
    (joined cell added peer handle (some old)).lease = old.lease := by
  show (if (old.options, old.peer) = (old.options.union added, peer.getD old.peer) then old
    else placed cell.frame cell.timeslot handle _ (some old)).lease = old.lease
  split <;> rfl

/-- The lease that is stamped after the options and the peer are added is the one from before. -/
theorem stamped_eq (cell : Cell) (added : Link.Options) (peer : Option Link.Peer)
    (direction : Direction) (now : SlotNumber) (handle : UInt32) (o : Option Link) :
    stamped direction now o =
      if o.isNone then some (.fresh now)
      else (joined cell added peer handle o).lease.map (·.stamp direction now) := by
  cases o with
  | none => rfl
  | some old =>
    rw [lease_joined]
    rfl

/-- A stamp sets the last use of its direction, -/
@[simp] theorem last_stamp_self (lease : Link.Lease) :
    (lease.stamp direction now).last direction = now := by
  cases direction <;> rfl

/-- and leaves that of the other. -/
theorem last_stamp_of_ne (lease : Link.Lease) {d : Direction} (h : d ≠ direction) :
    (lease.stamp direction now).last d = lease.last d := by
  cases direction <;> cases d <;> first | rfl | exact absurd rfl h

/-- In the direction of a use, the lease says that the cell was used now. -/
theorem last_of_stamped {lease : Link.Lease} (h : stamped direction now o = some lease) :
    lease.last direction = now := by
  cases o with
  | none =>
    cases h
    exact Link.Lease.last_fresh now direction
  | some old =>
    obtain ⟨lease₀, _, rfl⟩ := Option.map_eq_some_iff.1 h
    exact last_stamp_self lease₀

/-- In a direction of the merged link, the lease says now, or the direction was there and the lease
says what it said. -/
theorem last_of_merged (hadded : ∀ d, added.has d = true → d = direction) {lease : Link.Lease}
    (hlease : (merged cell added peer direction now handle o).lease = some lease) {d : Direction}
    (hhas : (merged cell added peer direction now handle o).options.has d = true) :
    lease.last d = now ∨ ∃ old lease₀, o = some old ∧ old.lease = some lease₀ ∧
      old.options.has d = true ∧ lease.last d = lease₀.last d := by
  rw [lease_merged] at hlease
  rw [has_merged] at hhas
  by_cases hd : d = direction
  · left
    rw [hd]
    exact last_of_stamped hlease
  · right
    have hnew : added.has d = false := Bool.eq_false_iff.2 fun h => hd (hadded d h)
    rw [hnew, Bool.or_false] at hhas
    cases o with
    | none => cases hhas
    | some old =>
      obtain ⟨lease₀, hlease₀, rfl⟩ := Option.map_eq_some_iff.1 hlease
      exact ⟨old, lease₀, rfl, hlease₀, hhas, last_stamp_of_ne lease₀ hd⟩

/-! ## Carrying out a merge -/

/-- Either the cell is vacant and the link is refused, with the schedule as it was, or the cell gets
it and nothing else changes. -/
theorem perform_putMerged (cell : Cell) (added : Link.Options) (peer : Option Link.Peer)
    (hs : s.WellFormed) :
    (∃ reason, (putMerged cell (s.link? cell.frame cell.timeslot) added peer).perform s =
        (s, .error (.refused reason)) ∧ s.link? cell.frame cell.timeslot = none) ∨
      ∃ s',
        (putMerged cell (s.link? cell.frame cell.timeslot) added peer).perform s = (s', .ok ()) ∧
        SetAt cell.frame cell.timeslot
          (some (joined cell added peer s.nextHandle (s.link? cell.frame cell.timeslot))) s s' := by
  set o := s.link? cell.frame cell.timeslot with ho
  unfold putMerged
  simp only []
  split
  · -- the link has the options and the peer already
    rename_i hsame
    obtain ⟨old, hold, hsame⟩ := Option.map_eq_some_iff.1 hsame
    refine .inr ⟨s, rfl, ?_⟩
    have hjoined : joined cell added peer s.nextHandle o = old := by
      rw [hold] at hsame ⊢
      exact if_pos hsame
    rw [hjoined, ← hold, ho]
    exact setAt_self hs cell.frame cell.timeslot
  · rename_i hne
    rw [Edit.perform_putLink]
    cases hput : s.putLink cell.frame cell.timeslot ⟨o.elim added (·.options.union added), .normal,
        peer.getD (o.elim .unbound (·.peer)), cell.channelOffset⟩ with
    | error reason => exact .inl ⟨reason, rfl, link?_of_putLink_error hs hput⟩
    | ok r =>
      obtain ⟨s', l⟩ := r
      obtain ⟨hl, hset⟩ := setAt_putLink hs hput
      refine .inr ⟨s', rfl, ?_⟩
      have hjoined : joined cell added peer s.nextHandle o = l := by
        rw [hl, ← ho]
        cases hold : o with
        | none => rfl
        | some old =>
          rw [hold] at hne
          exact if_neg fun h => hne (congrArg some h)
      rw [hjoined]
      exact hset

/-- The link at a cell is stamped. -/
theorem setAt_stampCell (direction : Direction) (now : SlotNumber) (hs : s.WellFormed) {l : Link}
    (hl : s.link? cell.frame cell.timeslot = some l) (isNew : Bool) :
    SetAt cell.frame cell.timeslot
      (some { l with
        lease := if isNew then some (.fresh now) else l.lease.map (·.stamp direction now) })
      s (stampCell cell isNew direction now s) := by
  have hset := fun lease => setAt_setLease hs cell.frame cell.timeslot lease
  simp only [hl, Option.map_some] at hset
  unfold stampCell
  simp only [hl]
  cases isNew with
  | true => exact hset _
  | false =>
    cases hlease : l.lease with
    | none =>
      have hsame : { l with lease := none } = l := by
        rw [← hlease]
      simp only [Bool.false_eq_true, if_false, Option.map_none, hsame]
      rw [← hl]
      exact setAt_self hs cell.frame cell.timeslot
    | some lease => exact hset _

/-- A merge is refused where there is no link and leaves all as it was, or the cell holds the merged
link and all else is as it was. -/
theorem perform_merge (cell : Cell) (added : Link.Options) (peer : Option Link.Peer)
    (direction : Direction) (now : SlotNumber) (hs : s.WellFormed) :
    (∃ reason, (merge cell added peer direction now).perform s = (s, .error (.refused reason)) ∧
        s.link? cell.frame cell.timeslot = none) ∨
      ∃ s', (merge cell added peer direction now).perform s = (s', .ok ()) ∧
        SetAt cell.frame cell.timeslot (some (merged cell added peer direction now s.nextHandle
          (s.link? cell.frame cell.timeslot))) s s' := by
  unfold merge
  rw [Change.perform_bind, Change.perform_get]
  simp only []
  rw [Change.perform_bind]
  rcases perform_putMerged cell added peer hs with
    ⟨reason, hput, hvacant⟩ | ⟨s', hput, hset⟩
  · rw [hput]
    exact .inl ⟨reason, rfl, hvacant⟩
  · rw [hput]
    refine .inr ⟨_, rfl, ?_⟩
    rw [merged, stamped_eq cell added peer direction now s.nextHandle]
    exact hset.trans (setAt_stampCell direction now hset.wellFormed hset.link?_self _)

end SlottedMesh.Planner
