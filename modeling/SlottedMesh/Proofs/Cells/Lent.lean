import SlottedMesh.Proofs.Cells.Orderly

/-!
# What lent links look like

The links that are lent to neighbours are changed by uses in either direction, by sweeps that take a
direction away and by joins, in any order.  Whatever the order, such a link looks as if it had just
been made for the directions that it carries: `Lent` says how.

* `lent_merged`, `Lent.leave`, `Lent.renewed`: a use, a sweep and a join leave lent links so.
* `Touch.lent`: so does all that can happen at a place.
* `lent_of_run` is the main statement, about the schedules after a layout and any events.
-/

namespace SlottedMesh

namespace Planner

open Schedule

/-- What holds of a lent link at a place. -/
structure Lent (p : Planner) (frame timeslot : UInt16) (l : Link) : Prop where
  /-- It carries data alone. -/
  kind_eq : l.kind = .normal
  /-- It carries a direction. -/
  carries : l.options.tx = true ∨ l.options.rx = true
  /-- A link to transmit on is bound to a neighbour. -/
  peer_of_tx : l.options.tx = true → ∃ a, l.peer = .unicast a
  /-- Another link is bound to none. -/
  peer_of_not_tx : l.options.tx = false → l.peer = .unbound
  /-- A link is shared if it is one to transmit on and the plan shares those. -/
  shared_eq : l.options.shared = (l.options.tx && p.plan.sharesLentCells)
  /-- Where senders own the cells, the node transmits in its own cell only. -/
  own_cell : p.plan.ownership = .sender → l.options.tx = true →
    ∃ cell, p.plan.cell? p.index = some cell ∧ cell.frame = frame ∧ cell.timeslot = timeslot
  /-- Where receivers own the cells, the node listens in no lent cell. -/
  rx_eq : p.plan.ownership = .receiver → l.options.rx = false

variable {p : Planner} {d : Directory} {s s' : Schedule} {slot? : Option SlotNumber}
  {now : SlotNumber} {frame timeslot : UInt16} {l l' : Link} {cell : Cell} {u : Use}
  {handle : UInt32} {o o' : Option Link}

/-! ## Sweeps and joins -/

/-- What a sweep leaves of a lent link is the link, or the link without one of its directions.
Without transmission it is shared no more and bound to nobody. -/
theorem leave_eq_some {lease : Link.Lease} (hlease : l.lease = some lease)
    (h : (p.verdict now l).leave l = some l') :
    l' = l ∨
      (l.options.tx = true ∧ l.options.rx = true ∧
        l' = { l with options := .rxOnly, kind := .normal, peer := .unbound }) ∨
      (l.options.tx = true ∧ l.options.rx = true ∧
        l' = { l with options := { l.options with rx := false }, kind := .normal }) := by
  have hreduce {options : Link.Options} {peer : Link.Peer}
      (h : (reduceTo options peer).leave l = some l') :
      (options.tx = true ∨ options.rx = true) ∧ l' = { l with options, kind := .normal, peer } := by
    unfold reduceTo at h
    split at h
    · rename_i hany
      cases h
      exact ⟨Bool.or_eq_true_iff.1 hany, rfl⟩
    · cases h
  unfold verdict at h
  simp only [hlease] at h
  cases htx : p.isStale now lease.lastTx <;> cases hrx : p.isStale now lease.lastRx <;>
    simp only [htx, hrx] at h
  · cases h
    exact .inl rfl
  · split at h
    · rename_i hcarries
      obtain ⟨hrest, rfl⟩ := hreduce h
      simp [Link.Options.without, Link.Options.rxOnly, hcarries] at hrest
      refine .inr (.inr ⟨hrest, hcarries, ?_⟩)
      simp [Link.Options.without, Link.Options.rxOnly]
    · cases h
      exact .inl rfl
  · split at h
    · rename_i hcarries
      obtain ⟨hrest, rfl⟩ := hreduce h
      simp [Link.Options.without, Link.Options.txShared, hcarries] at hrest
      refine .inr (.inl ⟨hcarries, hrest, ?_⟩)
      simp [Link.Options.without, Link.Options.txShared, Link.Options.rxOnly, hrest]
    · cases h
      exact .inl rfl
  · cases h

/-- A sweep leaves a lent link as lent links are. -/
theorem Lent.leave (h : p.Lent frame timeslot l) (hlease : l.lease.isSome)
    (hleave : (p.verdict now l).leave l = some l') : p.Lent frame timeslot l' := by
  obtain ⟨lease, hlease⟩ := Option.isSome_iff_exists.1 hlease
  rcases leave_eq_some hlease hleave with rfl | ⟨htx, hrx, rfl⟩ | ⟨htx, hrx, rfl⟩
  · exact h
  · -- where receivers own the cells, there is no direction to keep
    refine ⟨rfl, .inr rfl, nofun, fun _ => rfl, rfl, fun _ => nofun, fun hownership => ?_⟩
    exact absurd hrx (by simp [h.rx_eq hownership])
  · exact ⟨rfl, .inl htx, h.peer_of_tx, h.peer_of_not_tx, h.shared_eq, h.own_cell, fun _ => rfl⟩

/-- So does a join. -/
theorem Lent.renewed (h : p.Lent frame timeslot l) (now : SlotNumber) :
    p.Lent frame timeslot (l.renewed now) :=
  ⟨h.kind_eq, h.carries, h.peer_of_tx, h.peer_of_not_tx, h.shared_eq, h.own_cell, h.rx_eq⟩

/-! ## Uses -/

/-- A use leaves a cell for normal traffic. -/
theorem kind_merged {added : Link.Options} {peer : Option Link.Peer} {direction : Direction}
    (ho : ∀ old ∈ o, old.kind = .normal) :
    (merged cell added peer direction now handle o).kind = .normal := by
  cases o with
  | none => rfl
  | some old =>
    show (if _ = _ then old else _).kind = .normal
    split
    · exact ho old rfl
    · rfl

/-- A use without a peer leaves a link bound as it is. -/
theorem peer_merged_none {added : Link.Options} {direction : Direction} :
    (merged cell added none direction now handle o).peer = o.elim .unbound (·.peer) := by
  cases o with
  | none => rfl
  | some old =>
    show (if _ = _ then old else _).peer = old.peer
    split <;> rfl

/-- To send adds the option to transmit, and to share where the plan shares lent cells. -/
theorem optionsFor_tx (p : Planner) : p.optionsFor .tx = ⟨true, false, p.plan.sharesLentCells⟩ := by
  show p.lentOptions = _
  unfold lentOptions
  cases p.plan.sharesLentCells <;> rfl

/-- A use to transmit makes a link as lent links are, of nothing or of one that is so. -/
theorem lent_merged_tx {a : Address}
    (hown : p.plan.ownership = .sender → p.plan.cell? p.index = some cell)
    (ho : ∀ old ∈ o, p.Lent cell.frame cell.timeslot old) :
    p.Lent cell.frame cell.timeslot
      (merged cell (p.optionsFor .tx) (some (.unicast a)) .tx now handle o) := by
  have hoptions : (merged cell (p.optionsFor .tx) (some (.unicast a)) .tx now handle o).options =
      ⟨true, o.any (·.options.rx), p.plan.sharesLentCells⟩ := by
    rw [options_merged, optionsFor_tx]
    cases o with
    | none => rfl
    | some old => simp [Link.Options.union, (ho old rfl).shared_eq]
  refine ⟨kind_merged fun old hold => (ho old hold).kind_eq, ?_, fun _ => ⟨a, peer_merged _⟩, ?_,
    ?_, fun hownership _ => ⟨cell, hown hownership, rfl, rfl⟩, fun hownership => ?_⟩
  · simp [hoptions]
  · simp [hoptions]
  · simp [hoptions]
  · rw [hoptions]
    cases o with
    | none => rfl
    | some old => simpa using (ho old rfl).rx_eq hownership

/-- So does a use to listen, where senders own the cells. -/
theorem lent_merged_rx (hownership : p.plan.ownership = .sender)
    (ho : ∀ old ∈ o, p.Lent frame timeslot old) :
    p.Lent frame timeslot (merged cell (p.optionsFor .rx) none .rx now handle o) := by
  have hnot : p.plan.ownership ≠ .receiver := by simp [hownership]
  generalize hmerged : merged cell (p.optionsFor .rx) none .rx now handle o = l
  have hkind : l.kind = .normal := hmerged ▸ kind_merged fun old hold => (ho old hold).kind_eq
  have hpeer : l.peer = o.elim .unbound (·.peer) := hmerged ▸ peer_merged_none
  have hoptions : l.options = o.elim .rxOnly (·.options.union .rxOnly) := hmerged ▸ options_merged
  cases o with
  | none =>
    refine ⟨hkind, .inr (by rw [hoptions]; rfl), ?_, fun _ => hpeer, by rw [hoptions]; rfl, ?_,
      (absurd · hnot)⟩
    · rw [hoptions]
      nofun
    · rw [hoptions]
      exact fun _ => nofun
  | some old =>
    have hold := ho old rfl
    have htx : l.options.tx = old.options.tx := by
      simp [hoptions, Link.Options.union, Link.Options.rxOnly]
    refine ⟨hkind, .inr ?_, ?_, ?_, ?_, ?_, (absurd · hnot)⟩
    · simp [hoptions, Link.Options.union, Link.Options.rxOnly]
    · rw [htx, hpeer]
      exact hold.peer_of_tx
    · rw [htx, hpeer]
      exact hold.peer_of_not_tx
    · rw [htx, ← hold.shared_eq]
      simp [hoptions, Link.Options.union, Link.Options.rxOnly]
    · rw [htx]
      exact hold.own_cell

/-- A use of a cell makes a link as lent links are, of nothing or of one that is so. -/
theorem lent_merged (hu : u.Fits p) (hcell : p.plan.cell? u.owner = some cell)
    (ho : ∀ old ∈ o, p.Lent cell.frame cell.timeslot old) :
    p.Lent cell.frame cell.timeslot
      (merged cell (p.optionsFor u.direction) u.peer u.direction now handle o) := by
  cases hdirection : u.direction with
  | tx =>
    obtain ⟨a, ha⟩ := hu.peer_tx hdirection
    rw [ha]
    refine lent_merged_tx (fun hownership => ?_) ho
    rw [← hu.owner_eq hdirection hownership, hcell]
  | rx =>
    rw [hu.peer_rx hdirection]
    exact lent_merged_rx (hu.ownership_eq hdirection) ho

/-! ## Places -/

/-- What happens at a place leaves the links that are lent there as they are, and all of them in the
unicast slotframes. -/
theorem Touch.lent {g t : UInt16} (h : p.Touch slot? g t o o')
    (ho : ∀ l ∈ o, l.lease.isSome → g ∈ p.plan.unicastFrames ∧ p.Lent g t l) :
    ∀ l ∈ o', l.lease.isSome → g ∈ p.plan.unicastFrames ∧ p.Lent g t l := by
  intro l' hl' hlease
  have hframe := h.mem_of_leased (fun l hl hlease => (ho l hl hlease).1) l' hl' hlease
  refine ⟨hframe, ?_⟩
  cases h with
  | @judged now l hnow _ =>
    have hsame : l.lease.isSome := by rwa [← lease_of_leave hl']
    exact (ho l rfl hsame).2.leave hsame hl'
  | @renewed now l hnow _ =>
    cases hl'
    have hsame : l.lease.isSome := by simpa [Link.renewed] using hlease
    exact (ho l rfl hsame).2.renewed now
  | used hnow hu hcell hg ht =>
    subst hg ht
    cases hl'
    apply lent_merged hu hcell
    intro old hold
    cases hold
    have hsame : old.lease.isSome := by simpa [lease_merged, stamped] using hlease
    exact (ho old rfl hsame).2
  | muted hbeacon hown haway => cases hl'
  | heard hbeacon hown haway => exact absurd hbeacon (CellPlan.ne_beaconFrame hframe)

/-! ## Whole runs -/

/-- **The links of a schedule.**  After a layout that succeeds and any events, in any slots and
however they end, each link has the id of its slotframe, which is three at most, as its channel
offset; leases are in the unicast slotframes only, and a link with a lease looks as lent links
do. -/
theorem lent_of_run {maxFrames maxLinks : Nat}
    (h : p.layOut.perform (.empty maxFrames maxLinks) = (s, .ok ())) (d : Directory)
    (es : List Event) {g t : UInt16} {l : Link} (hl : (p.run d s es).link? g t = some l) :
    (l.frame = g ∧ l.channelOffset = g ∧ g ≤ 3) ∧
      (l.lease.isSome → g ∈ p.plan.unicastFrames ∧ p.Lent g t l) := by
  have horderly := orderly_layOut h
  have hframes := (sameFrames_run (p := p) (d := d) horderly.wellFormed es).2
  have hrun := horderly.run (d := d) es
  refine ⟨⟨hrun.wellFormed.frame_eq hl, hrun.channelOffset_eq hl, ?_⟩, fun hlease => ?_⟩
  · have hlength : (p.plan.length? g).isSome := by
      rw [← (pristine_layOut h).2.1, ← hframes.length?_eq]
      obtain ⟨f, hf, -⟩ := link?_eq_some_iff.1 hl
      rw [Schedule.length?, hf]
      rfl
    exact CellPlan.le_three_of_length? hlength
  · have hstart : ∀ l ∈ s.link? g t, l.lease.isSome →
        g ∈ p.plan.unicastFrames ∧ p.Lent g t l := by
      intro l hl hlease
      rw [(pristine_layOut h).1.lease_eq hl] at hlease
      cases hlease
    exact run_preserves horderly.wellFormed (fun _ _ _ htouch => htouch.lent) hstart es l hl hlease

/-! A node that sends to one neighbour and hears of another whose cell is its own: the link is for
both directions, until only the sending goes on. -/

/-- The node, whose cell is the one of each index that is three more than a multiple of five. -/
def crowded : Planner :=
  ⟨{ CellPlan.standard with unicastPeriod := 5, sharesLentCells := true }, 3, 8⟩

/-- What happens to it. -/
def crowdedEvents : List Event :=
  [.sent ⟨.ofLastByte 3, .ofLastByte 5, false⟩ .delivered (.ofNat 1),
    .received ⟨.ofLastByte 8, .ofLastByte 3, false⟩ (.ofNat 2),
    .sent ⟨.ofLastByte 3, .ofLastByte 5, false⟩ .delivered (.ofNat 10),
    .expire (.ofNat 11)]

/-- Its schedule after the layout. -/
def crowdedStart : Schedule := (crowded.layOut.perform (.empty 4 8)).1

/-- In the end the link is for sending alone, shared as the plan says. -/
theorem lent_of_run_crowded :
    ∃ l, (crowded.run ⟨[], none⟩ crowdedStart crowdedEvents).link? 2 3 = some l ∧
      l.channelOffset = 2 ∧ l.lease.isSome ∧ l.options = ⟨true, false, true⟩ ∧
        crowded.Lent 2 3 l := by
  have hlayOut : (crowded.layOut.perform (.empty 4 8)).2 = .ok () := by decide +kernel
  have hlink : ((crowded.run ⟨[], none⟩ crowdedStart crowdedEvents).link? 2 3).map
      (fun l => (l.lease.isSome, l.options)) = some (true, ⟨true, false, true⟩) := by
    decide +kernel
  obtain ⟨l, hl, hview⟩ := Option.map_eq_some_iff.1 hlink
  obtain ⟨hlease, hoptions⟩ := Prod.mk.inj hview
  obtain ⟨⟨-, hoffset, -⟩, hlent⟩ := lent_of_run (Prod.ext rfl hlayOut) _ _ hl
  exact ⟨l, hl, hoffset, hlease, hoptions, (hlent hlease).2⟩

end Planner

end SlottedMesh
