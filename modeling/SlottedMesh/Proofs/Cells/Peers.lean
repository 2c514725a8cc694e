import SlottedMesh.Proofs.Cells.Beacons
import SlottedMesh.Proofs.Cells.Lent
import SlottedMesh.Proofs.Cells.Packets

/-!
# The neighbours that links are kept for

The first layout keeps no link for a neighbour in particular.  What binds a link to one is a packet
that was delivered to it, and nothing else: sweeps and joins leave links bound as they are or to
nobody, packets that are received bind no link, and the link for the beacons of the time source is
bound to nobody.

* `Schedule.Binds s a` says that some link of `s` is kept for `a`, and `Event.Delivers` that a
  packet was delivered to it.
* `binds_perform` says of each event, and `binds_run` of runs, that where a link is kept for a
  neighbour, one was before or a packet was delivered to it.
* `not_binds_layOut`: after a layout there is none.
-/

namespace SlottedMesh

namespace Schedule

variable {s s' : Schedule} {a : Address} {place : UInt16 → UInt16 → Prop}
  {rework : Link → Option Link} {frame timeslot : UInt16} {o : Option Link}

/-- Some link of the schedule is kept for the neighbour. -/
def Binds (s : Schedule) (a : Address) : Prop := ∃ g t l, s.link? g t = some l ∧ l.peer = .unicast a

/-- A work that binds no links to the neighbour. -/
theorem Reworked.binds (h : Reworked place rework s s')
    (hrework : ∀ l l', rework l = some l' → l'.peer = .unicast a → l.peer = .unicast a)
    (hs' : s'.Binds a) : s.Binds a := by
  obtain ⟨g, t, l', hl', hpeer⟩ := hs'
  by_cases hplace : place g t
  · rw [h.link?_of hplace] at hl'
    obtain ⟨l, hl, hleft⟩ := Option.bind_eq_some_iff.1 hl'
    exact ⟨g, t, l, hl, hrework l l' hleft hpeer⟩
  · rw [h.link?_of_not hplace] at hl'
    exact ⟨g, t, l', hl', hpeer⟩

/-- Where a place is set, a neighbour is bound by what it is set to, or was bound before. -/
theorem SetAt.binds (h : SetAt frame timeslot o s s') (hs' : s'.Binds a) :
    s.Binds a ∨ ∃ l, o = some l ∧ l.peer = .unicast a := by
  obtain ⟨g, t, l, hl, hpeer⟩ := hs'
  rw [h.link?_eq] at hl
  split at hl
  · exact .inr ⟨l, hl, hpeer⟩
  · exact .inl ⟨g, t, l, hl, hpeer⟩

end Schedule

namespace Planner

open Schedule

variable {p : Planner} {d : Directory} {s s' : Schedule} {a : Address} {now : SlotNumber}
  {l l' : Link}

/-! ## Sweeps and joins -/

/-- A verdict leaves a link bound as it is, or to nobody. -/
theorem peer_of_leave (h : (p.verdict now l).leave l = some l') :
    l'.peer = l.peer ∨ l'.peer = .unbound := by
  cases hlease : l.lease with
  | none =>
    rw [leave_of_unleased hlease] at h
    cases h
    exact .inl rfl
  | some lease =>
    rcases leave_eq_some hlease h with rfl | ⟨-, -, rfl⟩ | ⟨-, -, rfl⟩
    · exact .inl rfl
    · exact .inr rfl
    · exact .inl rfl

/-- A sweep binds no link to anyone, -/
theorem binds_of_sweep (hs : s.WellFormed) (h : (p.sweep now s).1.Binds a) : s.Binds a := by
  refine (sweep_reworked hs).binds (fun l l' hleave hpeer => ?_) h
  rcases peer_of_leave hleave with hsame | hnobody
  · rw [← hsame, hpeer]
  · rw [hnobody] at hpeer
    cases hpeer

/-- nor does starting the leases afresh. -/
theorem binds_of_renewAll (hs : s.WellFormed) (h : (p.renewAll now s).Binds a) : s.Binds a := by
  refine (renewAll_reworked hs).binds (fun l l' hrenewed hpeer => ?_) h
  cases hrenewed
  exact hpeer

/-! ## Uses -/

/-- A packet was delivered to the neighbour. -/
def Event.Delivers (a : Address) : Event → Prop
  | .sent packet outcome _ =>
    packet.isControl = false ∧ packet.receiver = a ∧ outcome = .delivered
  | _ => False

/-- A use binds a link to the neighbour to which a packet was delivered. -/
theorem Event.delivers_of_use? {e : Event} {u : Use} (hu : e.use? p d = some u)
    (hpeer : u.peer = some (.unicast a)) : e.Delivers a := by
  cases e with
  | received packet now =>
    simp only [Event.use?] at hu
    split at hu
    · cases hu
      cases hpeer
    · cases hu
  | sent packet outcome now =>
    simp only [Event.use?] at hu
    split at hu
    · rename_i hcontrol _
      cases hu
      cases hpeer
      exact ⟨hcontrol, rfl, rfl⟩
    · cases hu
  | expire now => cases hu
  | join now => cases hu
  | follow old new => cases hu

/-- A link that is kept for a neighbour after a merge was kept for it before, or the merge is for
it. -/
theorem peer_of_merged {cell : Cell} {added : Link.Options} {peer : Option Link.Peer}
    {direction : Direction} {handle : UInt32} {o : Option Link}
    (h : (merged cell added peer direction now handle o).peer = .unicast a) :
    (∃ l, o = some l ∧ l.peer = .unicast a) ∨ peer = some (.unicast a) := by
  cases peer with
  | none =>
    rw [peer_merged_none] at h
    cases o with
    | none => cases h
    | some l => exact .inl ⟨l, rfl, h⟩
  | some q =>
    rw [peer_merged] at h
    exact .inr (congrArg some h)

/-- Only a use that is bound to a neighbour binds a link to it. -/
theorem binds_of_make (hs : s.WellFormed) {u? : Option Use}
    (h : ((p.make now u?).perform s).1.Binds a) :
    s.Binds a ∨ ∃ u, u? = some u ∧ u.peer = some (.unicast a) := by
  cases u? with
  | none => exact .inl h
  | some u =>
    rcases perform_make u now hs with ⟨e, hrefused⟩ | ⟨cell, s', -, hdone, hset⟩
    · rw [hrefused] at h
      exact .inl h
    · rw [hdone] at h
      rcases hset.binds h with hbefore | ⟨l, hl, hpeer⟩
      · exact .inl hbefore
      · cases hl
        rcases peer_of_merged hpeer with ⟨l, hl, hpeer⟩ | hpeer
        · exact .inl ⟨_, _, l, hl, hpeer⟩
        · exact .inr ⟨u, rfl, hpeer⟩

/-- A packet binds a link to the neighbour to which it was delivered, if it does. -/
theorem binds_of_packet (hs : s.WellFormed) {e : Event} {packet : Packet}
    (he : e.packet? = some (packet, now)) (h : ((e.edit p d).perform s).1.Binds a) :
    s.Binds a ∨ e.Delivers a := by
  cases hcontrol : packet.isControl with
  | true =>
    rw [perform_control he hcontrol] at h
    exact .inl h
  | false =>
    rw [perform_packet he hcontrol] at h
    rcases binds_of_make (sweep_reworked hs).wellFormed h with hswept | ⟨u, hu, hpeer⟩
    · exact .inl (binds_of_sweep hs hswept)
    · exact .inr (Event.delivers_of_use? hu hpeer)

/-! ## Time sources -/

/-- The link for the beacons of the time source is bound to nobody. -/
theorem binds_of_followTimeSource (hs : s.WellFormed) {old new : Option Address}
    (h : ((p.followTimeSource d old new).perform s).1.Binds a) : s.Binds a := by
  obtain ⟨g, t, l, hl, hpeer⟩ := h
  have htouches : p.Touches none s ((p.followTimeSource d old new).perform s).1 :=
    touching_followTimeSource old new s hs
  refine htouches.preserves (P := fun o => ∀ l, o = some l → l.peer = .unicast a → s.Binds a)
    (fun o o' htouch ho => ?_) (fun l hl hpeer => ⟨g, t, l, hl, hpeer⟩) l hl hpeer
  cases htouch with
  | judged hnow => cases hnow
  | renewed hnow => cases hnow
  | used hnow => cases hnow
  | muted =>
    intro l hl
    cases hl
  | heard =>
    intro l hl hpeer
    cases hl
    rw [toAttributes_placed] at hpeer
    cases hpeer

/-! ## Events -/

/-- Where a link is kept for a neighbour after an event, one was before, or the event is the
delivery of a packet to it. -/
theorem binds_perform (hs : s.WellFormed) (e : Event)
    (h : ((e.edit p d).perform s).1.Binds a) : s.Binds a ∨ e.Delivers a := by
  cases e with
  | received packet now => exact binds_of_packet hs rfl h
  | sent packet outcome now => exact binds_of_packet hs rfl h
  | expire now =>
    have hswept : (p.sweep now s).1.Binds a := h
    exact .inl (binds_of_sweep hs hswept)
  | join now =>
    have hrenewed : (p.renewAll now s).Binds a := h
    exact .inl (binds_of_renewAll hs hrenewed)
  | follow old new => exact .inl (binds_of_followTimeSource hs h)

/-- So it is after a run. -/
theorem binds_run (hs : s.WellFormed) {es : List Event} (h : (p.run d s es).Binds a) :
    s.Binds a ∨ ∃ e ∈ es, e.Delivers a := by
  induction es generalizing s with
  | nil => exact .inl h
  | cons e es ih =>
    have hwellFormed := (touching_edit (p := p) (d := d) e s hs).wellFormed
    rcases ih hwellFormed h with hfirst | ⟨e', he', hdelivers⟩
    · rcases binds_perform hs e hfirst with hstart | hdelivers
      · exact .inl hstart
      · exact .inr ⟨e, List.mem_cons_self .., hdelivers⟩
    · exact .inr ⟨e', List.mem_cons_of_mem _ he', hdelivers⟩

/-! ## The first layout -/

/-- The first layout keeps no link for a neighbour in particular. -/
theorem not_binds_layOut {maxFrames maxLinks : Nat} {x : Unit}
    (h : p.layOut.perform (.empty maxFrames maxLinks) = (s, .ok x)) : ¬s.Binds a := by
  rintro ⟨g, t, l, hl, hpeer⟩
  have hset := (laid_layOut h).attributes?_eq g t
  rw [Schedule.attributes?, hl] at hset
  obtain ⟨y, hy, hattributes⟩ := exists_mem_of_shown hset.symm
  have hpeer : y.attributes.peer = .unicast a := by rw [hattributes, hpeer]
  rcases List.mem_append.1 hy with hy | hy
  · obtain ⟨own, rfl⟩ := eq_of_mem_laidBeacons hy
    cases hpeer
  · rcases List.mem_append.1 hy with hy | hy
    · rw [eq_of_mem_laidShared hy] at hpeer
      cases hpeer
    · unfold laidUnicast at hy
      split at hy
      · obtain ⟨l, -, options, -, rfl⟩ := mem_laidFixed_iff.1 hy
        cases hpeer
      · obtain ⟨cell, -, rfl⟩ := eq_of_mem_laidOwn hy
        cases hpeer

end Planner

end SlottedMesh
