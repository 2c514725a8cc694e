import SlottedMesh.Proofs.Cells.Combined

/-!
# Visits of places

Packets of one slot visit places, each in a direction.  Where all packets that are delivered go to
one neighbour, what they make of a schedule is told by the set of their visits: `Worked` says that a
schedule is what some visits make of a swept one, with some handles for the links that are new.

* `Worked.visit` is the step: one more visit, of a place that has a link or of a vacant one.
* `Worked.event` says that a packet makes its visits, and `Worked.run` that a run of packets does,
  if there is room for the new links.
-/

namespace SlottedMesh.Planner

open Schedule

/-! ## Visits -/

/-- The place that a packet uses, and the direction of the use. -/
def Event.visit? (p : Planner) (d : Directory) (e : Event) :
    Option ((UInt16 × UInt16) × Direction) :=
  (e.use? p d).bind fun u =>
    (p.plan.cell? u.owner).map fun cell => ((cell.frame, cell.timeslot), u.direction)

/-- The visits of some packets. -/
def visits (p : Planner) (d : Directory) (es : List Event) :
    Finset ((UInt16 × UInt16) × Direction) :=
  (es.filterMap (Event.visit? p d)).toFinset

/-- The directions in which a place is visited. -/
def directionsAt (visited : Finset ((UInt16 × UInt16) × Direction)) (place : UInt16 × UInt16) :
    Finset Direction :=
  {direction | (place, direction) ∈ visited}

/-- The places that are visited and vacant. -/
def opened (s : Schedule) (visited : Finset ((UInt16 × UInt16) × Direction)) :
    Finset (UInt16 × UInt16) :=
  {place ∈ visited.image Prod.fst | s.link? place.1 place.2 = none}

/-- A packet of slot `now` that, if it is delivered and not of routing, was for `a`. -/
def Event.IsTraffic (now : SlotNumber) (a : Address) : Event → Prop
  | received _ slot => slot = now
  | sent packet outcome slot =>
    slot = now ∧ (packet.isControl = false → outcome = .delivered → packet.receiver = a)
  | _ => False

/-- How the events end, one after another. -/
def endings (p : Planner) (d : Directory) (s : Schedule) :
    List Event → List (Except PlannerError Unit)
  | [] => []
  | e :: es => ((e.edit p d).perform s).2 :: p.endings d ((e.edit p d).perform s).1 es

variable {p : Planner} {d : Directory} {a : Address} {now : SlotNumber} {s s' s₀ : Schedule}
  {visited : Finset ((UInt16 × UInt16) × Direction)} {place : UInt16 × UInt16}
  {direction : Direction} {e : Event} {es es' : List Event}

/-- The directions at a place are those that were visited there. -/
@[simp] theorem mem_directionsAt : direction ∈ directionsAt visited place ↔
    (place, direction) ∈ visited := by
  simp [directionsAt]

/-- The places that were opened are those that were visited and vacant. -/
theorem mem_opened : place ∈ opened s visited ↔
    (∃ direction, (place, direction) ∈ visited) ∧ s.link? place.1 place.2 = none := by
  simp [opened]

/-- A visit adds its direction at its place, -/
theorem directionsAt_insert_self (visited : Finset ((UInt16 × UInt16) × Direction))
    (place : UInt16 × UInt16) (direction : Direction) :
    directionsAt (insert (place, direction) visited) place =
      insert direction (directionsAt visited place) := by
  ext direction'
  simp

/-- and nothing at other places. -/
theorem directionsAt_insert_of_ne {place' : UInt16 × UInt16} (h : place' ≠ place) :
    directionsAt (insert (place, direction) visited) place' = directionsAt visited place' := by
  ext direction'
  simp [h]

/-- The cell of a place. -/
def cellAt (place : UInt16 × UInt16) : Cell := ⟨place.1, place.2, place.1⟩

/-- The cell of an index is known from its place alone. -/
theorem cellAt_of_cell? {index : UInt16} {cell : Cell} (h : p.plan.cell? index = some cell) :
    cellAt (cell.frame, cell.timeslot) = cell := by
  obtain ⟨frame, timeslot, channelOffset⟩ := cell
  obtain rfl : channelOffset = frame := (CellPlan.cell?_eq_some h).2
  rfl

/-- Where there is a link, or one was made already, none is made. -/
theorem opened_insert_of_linked
    (h : (s.link? place.1 place.2).isSome ∨ place ∈ opened s visited) :
    opened s (insert (place, direction) visited) = opened s visited := by
  ext place'
  rw [mem_opened, mem_opened]
  refine and_congr_left fun hvacant => ?_
  constructor
  · rintro ⟨direction', hmem⟩
    rcases Finset.mem_insert.1 hmem with heq | hmem
    · obtain ⟨rfl, -⟩ := Prod.mk.inj heq
      rcases h with h | h
      · rw [hvacant] at h
        exact absurd h Bool.false_ne_true
      · exact (mem_opened.1 h).1
    · exact ⟨direction', hmem⟩
  · rintro ⟨direction', hmem⟩
    exact ⟨direction', Finset.mem_insert_of_mem hmem⟩

/-- Where there is none, one is made. -/
theorem opened_insert_of_vacant (h : s.link? place.1 place.2 = none) :
    opened s (insert (place, direction) visited) = insert place (opened s visited) := by
  ext place'
  rw [Finset.mem_insert, mem_opened, mem_opened]
  constructor
  · rintro ⟨⟨direction', hmem⟩, hvacant⟩
    rcases Finset.mem_insert.1 hmem with heq | hmem
    · exact .inl (Prod.mk.inj heq).1
    · exact .inr ⟨⟨direction', hmem⟩, hvacant⟩
  · rintro (rfl | ⟨⟨direction', hmem⟩, hvacant⟩)
    · exact ⟨⟨direction, Finset.mem_insert_self _ _⟩, h⟩
    · exact ⟨⟨direction', Finset.mem_insert_of_mem hmem⟩, hvacant⟩

/-- More visits open more places. -/
theorem opened_mono {visited' : Finset ((UInt16 × UInt16) × Direction)}
    (h : visited ⊆ visited') : opened s visited ⊆ opened s visited' :=
  Finset.filter_subset_filter _ (Finset.image_subset_image h)

/-- There are no more places than handles. -/
theorem card_places_le (places : Finset (UInt16 × UInt16)) : places.card ≤ UInt32.size := by
  have hmaps : ∀ place ∈ places,
      place.1.toNat * UInt16.size + place.2.toNat ∈ Finset.range UInt32.size := by
    intro place _
    have hframe := place.1.toNat_lt
    have htimeslot := place.2.toNat_lt
    simp only [Finset.mem_range, UInt16.size, UInt32.size]
    omega
  have hinj : Set.InjOn (fun place : UInt16 × UInt16 =>
      place.1.toNat * UInt16.size + place.2.toNat) places := by
    rintro ⟨g, t⟩ _ ⟨g', t'⟩ _ heq
    have ht := t.toNat_lt
    have ht' := t'.toNat_lt
    simp only [UInt16.size] at heq
    obtain rfl : g = g' := UInt16.toNat_inj.1 (by omega)
    obtain rfl : t = t' := UInt16.toNat_inj.1 (by omega)
    rfl
  have hcard := Finset.card_le_card_of_injOn _ hmaps hinj
  rwa [Finset.card_range] at hcard

/-! ## Visits made -/

/-- The link at a place before its visits: the one of the schedule, or a bare one with a handle. -/
def origin (s₀ : Schedule) (now : SlotNumber) (handles : UInt16 × UInt16 → UInt32)
    (place : UInt16 × UInt16) : Link :=
  (s₀.link? place.1 place.2).getD (bare (cellAt place) now (handles place))

/-- The schedule `s` is what the visits make of `s₀`, where new links have these handles. -/
structure Worked (p : Planner) (a : Address) (now : SlotNumber) (s₀ : Schedule)
    (visited : Finset ((UInt16 × UInt16) × Direction)) (handles : UInt16 × UInt16 → UInt32)
    (s : Schedule) : Prop where
  /-- What is kept twice agrees. -/
  wellFormed : s.WellFormed
  /-- The slotframes are the same. -/
  sameFrames : SameFrames s₀ s
  /-- A sweep would leave the links as they are. -/
  settled : ∀ g ∈ p.plan.unicastFrames, ∀ t l, s.link? g t = some l → p.Settled now l
  /-- A place that had a link, or was opened, has what the visits make of it. -/
  link?_of_linked {place : UInt16 × UInt16} :
    (s₀.link? place.1 place.2).isSome ∨ place ∈ opened s₀ visited →
    s.link? place.1 place.2 = some (p.combined a now (cellAt place) (directionsAt visited place)
      (origin s₀ now handles place))
  /-- Other places are vacant. -/
  link?_of_vacant {place : UInt16 × UInt16} : s₀.link? place.1 place.2 = none →
    place ∉ opened s₀ visited → s.link? place.1 place.2 = none
  /-- The new links are counted. -/
  linkCount_eq : s.linkCount = s₀.linkCount + (opened s₀ visited).card
  /-- Each took a handle. -/
  nextHandle_eq : s.nextHandle = s₀.nextHandle + .ofNat (opened s₀ visited).card
  /-- The handles that they have are those that were given out. -/
  number_lt {place : UInt16 × UInt16} : place ∈ opened s₀ visited →
    (handles place - s₀.nextHandle).toNat < (opened s₀ visited).card
  /-- No two have the same. -/
  injOn : Set.InjOn handles (opened s₀ visited)

variable {handles handles' : UInt16 × UInt16 → UInt32}

/-- Without visits nothing is opened. -/
theorem opened_empty (s : Schedule) : opened s ∅ = ∅ := rfl

/-- Before any visits. -/
theorem worked_start (hs : s.WellFormed)
    (hsettled : ∀ g ∈ p.plan.unicastFrames, ∀ t l, s.link? g t = some l → p.Settled now l)
    (handles : UInt16 × UInt16 → UInt32) : p.Worked a now s ∅ handles s where
  wellFormed := hs
  sameFrames := .refl s
  settled := hsettled
  link?_of_linked {place} h := by
    obtain ⟨l, hl⟩ : ∃ l, s.link? place.1 place.2 = some l := by
      rcases h with h | h
      · exact Option.isSome_iff_exists.1 h
      · exact absurd h (Finset.notMem_empty place)
    have hnone : directionsAt ∅ place = ∅ := rfl
    rw [hnone, combined_empty, origin, hl]
    rfl
  link?_of_vacant hvacant _ := hvacant
  linkCount_eq := rfl
  nextHandle_eq := (UInt32.add_zero s.nextHandle).symm
  number_lt h := absurd h (Finset.notMem_empty _)
  injOn := by
    intro place hplace
    exact absurd hplace (Finset.notMem_empty place)

/-- What is merged into a settled schedule leaves it so. -/
theorem settled_of_merges {cell : Cell} {peer : Option Link.Peer}
    (hsettled : ∀ g ∈ p.plan.unicastFrames, ∀ t l, s.link? g t = some l → p.Settled now l)
    (hmerges : Merges cell (p.optionsFor direction) peer direction now s s') :
    ∀ g ∈ p.plan.unicastFrames, ∀ t l, s'.link? g t = some l → p.Settled now l := by
  intro g hg t l hl
  rw [hmerges.setAt.link?_eq] at hl
  split at hl
  · rename_i hgt
    obtain ⟨rfl, rfl⟩ := hgt
    obtain rfl := Option.some.inj hl
    rcases hold : s.link? cell.frame cell.timeslot with _ | old
    · rw [merged_none]
      exact settled_merged (settled_bare ..) _ _
    · exact settled_merged (hsettled _ hg _ old hold) _ _
  · exact hsettled g hg t l hl

/-- A merge changes nothing at other places. -/
theorem Merges.link?_of_ne {added : Link.Options} {peer : Option Link.Peer}
    {place' : UInt16 × UInt16} (h : Merges (cellAt place) added peer direction now s s')
    (hne : place' ≠ place) : s'.link? place'.1 place'.2 = s.link? place'.1 place'.2 := by
  rw [h.setAt.link?_eq]
  exact if_neg fun hgt => hne (Prod.ext hgt.1 hgt.2)

/-- One more visit of a place that has a link. -/
theorem Worked.visit_linked (h : p.Worked a now s₀ visited handles s)
    (hmerges : Merges (cellAt place) (p.optionsFor direction) (peerOf a {direction}) direction now
      s s')
    (hlinked : (s₀.link? place.1 place.2).isSome ∨ place ∈ opened s₀ visited) :
    p.Worked a now s₀ (insert (place, direction) visited) handles s' := by
  have hold := h.link?_of_linked hlinked
  have hopened := @opened_insert_of_linked s₀ visited place direction hlinked
  refine ⟨hmerges.setAt.wellFormed, h.sameFrames.trans hmerges.setAt.sameFrames,
    settled_of_merges h.settled hmerges, ?_, ?_, ?_, ?_, ?_, ?_⟩
  · intro place' hlinked'
    rw [hopened] at hlinked'
    by_cases heq : place' = place
    · subst heq
      rw [directionsAt_insert_self, ← combined_combined, ← merged_some s.nextHandle, ← hold]
      exact hmerges.setAt.link?_self
    · rw [directionsAt_insert_of_ne heq, ← h.link?_of_linked hlinked', hmerges.link?_of_ne heq]
  · intro place' hvacant hnot
    rw [hopened] at hnot
    have hne : place' ≠ place := by
      rintro rfl
      rw [h.link?_of_vacant hvacant hnot] at hold
      exact absurd hold nofun
    rw [hmerges.link?_of_ne hne, h.link?_of_vacant hvacant hnot]
  · rw [hopened, ← h.linkCount_eq]
    exact linkCount_of_setAt_some h.wellFormed hmerges.setAt hold
  · rw [hopened, ← h.nextHandle_eq]
    exact hmerges.nextHandle_of_some hold
  · intro place' hmem
    rw [hopened] at hmem ⊢
    exact h.number_lt hmem
  · rw [hopened]
    exact h.injOn

/-- A vacant place that was not opened was not visited. -/
theorem directionsAt_eq_empty (hvacant : s.link? place.1 place.2 = none)
    (hnot : place ∉ opened s visited) : directionsAt visited place = ∅ := by
  rw [Finset.eq_empty_iff_forall_notMem]
  intro direction hmem
  exact hnot (mem_opened.2 ⟨⟨direction, mem_directionsAt.1 hmem⟩, hvacant⟩)

/-- The first visit of a vacant place. -/
theorem Worked.visit_vacant (h : p.Worked a now s₀ visited handles s)
    (hmerges : Merges (cellAt place) (p.optionsFor direction) (peerOf a {direction}) direction now
      s s')
    (hvacant : s₀.link? place.1 place.2 = none) (hnot : place ∉ opened s₀ visited) :
    p.Worked a now s₀ (insert (place, direction) visited)
      (Function.update handles place s.nextHandle) s' := by
  have hold := h.link?_of_vacant hvacant hnot
  have hopened := @opened_insert_of_vacant s₀ visited place direction hvacant
  have hcard := Finset.card_insert_of_notMem hnot
  have hbound := card_places_le (insert place (opened s₀ visited))
  -- handles wrap, but there are no more places than handles
  have hnumber : (s.nextHandle - s₀.nextHandle).toNat = (opened s₀ visited).card := by
    have hstart := s₀.nextHandle.toNat_lt
    rw [h.nextHandle_eq, UInt32.toNat_sub, UInt32.toNat_add, UInt32.toNat_ofNat']
    simp only [UInt32.size] at hbound
    omega
  have hother {place' : UInt16 × UInt16} (hne : place' ≠ place) :
      Function.update handles place s.nextHandle place' = handles place' :=
    Function.update_of_ne hne _ _
  refine ⟨hmerges.setAt.wellFormed, h.sameFrames.trans hmerges.setAt.sameFrames,
    settled_of_merges h.settled hmerges, ?_, ?_, ?_, ?_, ?_, ?_⟩
  · intro place' hlinked
    rw [hopened] at hlinked
    by_cases heq : place' = place
    · subst heq
      have hbare : origin s₀ now (Function.update handles place' s.nextHandle) place' =
          bare (cellAt place') now s.nextHandle := by
        unfold origin
        rw [hvacant, Function.update_self]
        rfl
      rw [directionsAt_insert_self, directionsAt_eq_empty hvacant hnot, hbare]
      have hself := hmerges.setAt.link?_self
      have hold : s.link? (cellAt place').frame (cellAt place').timeslot = none := hold
      rw [hold, merged_none, merged_some] at hself
      exact hself
    · have hlinked' : (s₀.link? place'.1 place'.2).isSome ∨ place' ∈ opened s₀ visited :=
        hlinked.imp_right fun hmem => (Finset.mem_insert.1 hmem).resolve_left heq
      have horigin : origin s₀ now (Function.update handles place s.nextHandle) place' =
          origin s₀ now handles place' := by
        unfold origin
        rw [hother heq]
      rw [directionsAt_insert_of_ne heq, horigin, ← h.link?_of_linked hlinked',
        hmerges.link?_of_ne heq]
  · intro place' hvacant' hnot'
    rw [hopened, Finset.mem_insert, not_or] at hnot'
    rw [hmerges.link?_of_ne hnot'.1, h.link?_of_vacant hvacant' hnot'.2]
  · rw [hopened, hcard, ← Nat.add_assoc, ← h.linkCount_eq]
    exact linkCount_of_setAt_vacant h.wellFormed hmerges.setAt hold
  · rw [hopened, hcard, hmerges.nextHandle_of_vacant hold, h.nextHandle_eq, UInt32.add_assoc,
      UInt32.ofNat_add]
    rfl
  · intro place' hmem
    rw [hopened] at hmem ⊢
    rw [hcard]
    by_cases heq : place' = place
    · rw [heq, Function.update_self, hnumber]
      exact Nat.lt_succ_self _
    · rw [hother heq]
      exact Nat.lt_succ_of_lt (h.number_lt ((Finset.mem_insert.1 hmem).resolve_left heq))
  · rw [hopened, Finset.coe_insert, Set.injOn_insert hnot]
    constructor
    · refine h.injOn.congr fun place' hmem => (hother ?_).symm
      rintro rfl
      exact hnot hmem
    · -- the new handle comes after those that were given out
      rintro ⟨place', hmem, heq⟩
      have hne : place' ≠ place := by
        rintro rfl
        exact hnot hmem
      have hlt := h.number_lt hmem
      rw [hother hne, Function.update_self] at heq
      rw [heq, hnumber] at hlt
      exact Nat.lt_irrefl _ hlt

/-- One more visit. -/
theorem Worked.visit (h : p.Worked a now s₀ visited handles s)
    (hmerges : Merges (cellAt place) (p.optionsFor direction) (peerOf a {direction}) direction now
      s s') :
    ∃ handles', p.Worked a now s₀ (insert (place, direction) visited) handles' s' := by
  by_cases hlinked : (s₀.link? place.1 place.2).isSome ∨ place ∈ opened s₀ visited
  · exact ⟨_, h.visit_linked hmerges hlinked⟩
  · rw [not_or, Option.not_isSome_iff_eq_none] at hlinked
    exact ⟨_, h.visit_vacant hmerges hlinked.1 hlinked.2⟩

/-- There is room for a link that is still to be made. -/
theorem Worked.lt_maxLinks (h : p.Worked a now s₀ visited handles s)
    (hvacant : s.link? place.1 place.2 = none)
    (hroom : s₀.linkCount + (opened s₀ (insert (place, direction) visited)).card ≤ s₀.maxLinks) :
    s.linkCount < s.maxLinks := by
  have hnot : ¬((s₀.link? place.1 place.2).isSome ∨ place ∈ opened s₀ visited) := by
    intro hlinked
    rw [h.link?_of_linked hlinked] at hvacant
    exact absurd hvacant nofun
  rw [not_or, Option.not_isSome_iff_eq_none] at hnot
  rw [opened_insert_of_vacant hnot.1, Finset.card_insert_of_notMem hnot.2] at hroom
  rw [h.linkCount_eq, h.sameFrames.maxLinks_eq]
  omega

/-! ## Packets -/

/-- Traffic happens in the slot. -/
theorem Event.IsTraffic.slot?_eq (he : e.IsTraffic now a) : e.slot? = some now := by
  cases e with
  | received packet slot => exact congrArg some he
  | sent packet outcome slot => exact congrArg some he.1
  | expire | join | follow => exact absurd he id

/-- Traffic is about a packet. -/
theorem Event.IsTraffic.packet?_eq (he : e.IsTraffic now a) :
    ∃ packet, e.packet? = some (packet, now) := by
  cases e with
  | received packet slot => exact ⟨packet, congrArg (fun slot => some (packet, slot)) he⟩
  | sent packet outcome slot => exact ⟨packet, congrArg (fun slot => some (packet, slot)) he.1⟩
  | expire | join | follow => exact absurd he id

/-- A use that such a packet makes binds the link to `a`, or leaves it bound as it is. -/
theorem Event.IsTraffic.peer_eq (he : e.IsTraffic now a) {u : Use} (hu : e.use? p d = some u) :
    u.peer = peerOf a {u.direction} := by
  unfold Event.use? at hu
  split at hu
  · split at hu
    · obtain rfl := Option.some.inj hu
      rfl
    · cases hu
  · split at hu
    · rename_i hcontrol _
      obtain rfl := Option.some.inj hu
      rw [he.2 hcontrol rfl]
      rfl
    · cases hu
  · cases hu

/-- The visits of events are those of the first and those of the others. -/
theorem visits_cons (e : Event) (es : List Event) :
    p.visits d (e :: es) = p.visits d [e] ∪ p.visits d es := by
  ext visit
  simp [visits, List.mem_filterMap]

/-- An event that makes no use of a cell visits none. -/
theorem visits_of_none (h : e.use? p d = none) : p.visits d [e] = ∅ := by
  simp [visits, Event.visit?, h]

/-- An event that makes use of a cell visits it in the direction of the use. -/
theorem visits_of_some {u : Use} {cell : Cell} (h : e.use? p d = some u)
    (hcell : p.plan.cell? u.owner = some cell) :
    p.visits d [e] = {((cell.frame, cell.timeslot), u.direction)} := by
  simp [visits, Event.visit?, h, hcell]

/-- A packet makes its visits, if there is room for the link that they may make. -/
theorem Worked.event (h : p.Worked a now s₀ visited handles s)
    (hlengths : ∀ g ∈ p.plan.unicastFrames, s₀.length? g = p.plan.unicastLength? g)
    (he : e.IsTraffic now a)
    (hroom : s₀.linkCount + (opened s₀ (visited ∪ p.visits d [e])).card ≤ s₀.maxLinks) :
    ∃ s' handles', (e.edit p d).perform s = (s', .ok ()) ∧
      p.Worked a now s₀ (visited ∪ p.visits d [e]) handles' s' := by
  have hswept := sweep_eq_self h.wellFormed h.settled
  rcases hu : e.use? p d with _ | u
  · -- it changes nothing: either it is of routing, or the sweep has nothing to do
    refine ⟨s, handles, ?_, ?_⟩
    · obtain ⟨packet, hpacket⟩ := he.packet?_eq
      rcases hcontrol : packet.isControl with _ | _
      · rw [perform_packet hpacket hcontrol, hu, hswept]
        rfl
      · exact perform_control hpacket hcontrol
    · rw [visits_of_none hu, Finset.union_empty]
      exact h
  · have hlengths' : ∀ g ∈ p.plan.unicastFrames, s.length? g = p.plan.unicastLength? g := by
      intro g hg
      rw [h.sameFrames.length?_eq, hlengths g hg]
    obtain ⟨cell, length, hcell, hlength, hlt⟩ := CellPlan.exists_cell_of_lengths hlengths' u.owner
    have hvisits : visited ∪ p.visits d [e] =
        insert ((cell.frame, cell.timeslot), u.direction) visited := by
      rw [visits_of_some hu hcell, Finset.union_comm, Finset.singleton_union]
    rw [hvisits] at hroom ⊢
    have hdone : ∃ s',
        (merge cell (p.optionsFor u.direction) u.peer u.direction now).perform s = (s', .ok ()) ∧
        Merges cell (p.optionsFor u.direction) u.peer u.direction now s s' :=
      exists_perform_merge h.wellFormed hlength hlt fun hvacant => h.lt_maxLinks hvacant hroom
    obtain ⟨s', hmerge, hmerges⟩ := hdone
    obtain ⟨slot, hslot, hperform⟩ := @perform_edit_of_use? p d s e u hu
    obtain rfl : now = slot := Option.some.inj (he.slot?_eq.symm.trans hslot)
    rw [he.peer_eq hu, ← cellAt_of_cell? hcell] at hmerges
    obtain ⟨handles', hworked⟩ := h.visit hmerges
    refine ⟨s', handles', ?_, hworked⟩
    rw [hperform, hswept, perform_make_of_cell hcell]
    exact hmerge

/-- All of some packets make their visits, if there is room for all links that they make. -/
theorem Worked.run (h : p.Worked a now s₀ visited handles s)
    (hlengths : ∀ g ∈ p.plan.unicastFrames, s₀.length? g = p.plan.unicastLength? g)
    (hes : ∀ e ∈ es, e.IsTraffic now a)
    (hroom : s₀.linkCount + (opened s₀ (visited ∪ p.visits d es)).card ≤ s₀.maxLinks) :
    (∀ ending ∈ p.endings d s es, ending = .ok ()) ∧
      ∃ handles', p.Worked a now s₀ (visited ∪ p.visits d es) handles' (p.run d s es) := by
  -- along the packets, for any visits made before them; the room is for the visits of all
  induction es generalizing s visited handles with
  | nil =>
    have hnone : p.visits d [] = ∅ := rfl
    rw [hnone, Finset.union_empty]
    exact ⟨nofun, handles, h⟩
  | cons e es ih =>
    rw [visits_cons, ← Finset.union_assoc] at hroom ⊢
    have hfirst : s₀.linkCount + (opened s₀ (visited ∪ p.visits d [e])).card ≤ s₀.maxLinks :=
      Nat.le_trans (Nat.add_le_add_left
        (Finset.card_le_card (opened_mono Finset.subset_union_left)) _) hroom
    obtain ⟨s', handles', hperform, hworked⟩ :=
      h.event hlengths (hes e (List.mem_cons_self ..)) hfirst
    obtain ⟨hendings, hrun⟩ := ih hworked (fun e he => hes e (List.mem_cons_of_mem _ he)) hroom
    have hs' : ((e.edit p d).perform s).1 = s' := congrArg Prod.fst hperform
    constructor
    · intro ending hmem
      rcases List.mem_cons.1 hmem with rfl | hmem
      · exact congrArg Prod.snd hperform
      · rw [hs'] at hmem
        exact hendings ending hmem
    · show ∃ handles', p.Worked a now s₀ _ handles' (p.run d ((e.edit p d).perform s).1 es)
      rw [hs']
      exact hrun

end SlottedMesh.Planner
