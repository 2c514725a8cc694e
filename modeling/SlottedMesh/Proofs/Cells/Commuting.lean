import Mathlib.Logic.Equiv.Fintype
import SlottedMesh.Proofs.Cells.Orderly
import SlottedMesh.Proofs.Cells.Visits

/-!
# Packets of one slot

Packets of one slot can be processed in any order, if all that are delivered go to one neighbour and
there is room for the links that they make.

* `Worked.renamed`: what the same visits make of a schedule, in two orders, differs by a renaming of
  the handles of new links alone.
* `run_sweep` and `endings_sweep`: packets do the same before the sweep that they begin with and
  after it.
* `packets_commute` is the main statement.
-/

namespace SlottedMesh.Planner

open Schedule

/-- The links at some places have other handles, as renamed by `rename`; all else is the same. -/
structure RenamedAt (places : Finset (UInt16 × UInt16)) (rename : UInt32 → UInt32)
    (s s' : Schedule) : Prop where
  /-- The slotframes are the same. -/
  sameFrames : SameFrames s s'
  /-- There are as many links. -/
  linkCount_eq : s'.linkCount = s.linkCount
  /-- The next link gets the same handle. -/
  nextHandle_eq : s'.nextHandle = s.nextHandle
  /-- Other places show the same. -/
  link?_of_not {place : UInt16 × UInt16} : place ∉ places →
    s'.link? place.1 place.2 = s.link? place.1 place.2
  /-- Each of the places has a link, which has another handle. -/
  link?_of_mem {place : UInt16 × UInt16} : place ∈ places →
    ∃ l, s.link? place.1 place.2 = some l ∧
      s'.link? place.1 place.2 = some { l with handle := rename l.handle }

variable {p : Planner} {d : Directory} {a : Address} {now : SlotNumber} {s s' s₀ : Schedule}
  {visited : Finset ((UInt16 × UInt16) × Direction)} {e : Event} {es es' : List Event}
  {handles handles' : UInt16 × UInt16 → UInt32}

/-! ## Two orders -/

/-- What the same visits make of a schedule differs by the handles of new links alone. -/
theorem Worked.renamed (h : p.Worked a now s₀ visited handles s)
    (h' : p.Worked a now s₀ visited handles' s') :
    ∃ rename : Equiv.Perm UInt32, RenamedAt (opened s₀ visited) rename s s' := by
  obtain ⟨rename, hrename⟩ := Equiv.Perm.exists_extending_pair
    (fun place : opened s₀ visited => handles place) (fun place => handles' place)
    h.injOn.injective h'.injOn.injective
  refine ⟨rename, h.sameFrames.symm.trans h'.sameFrames, ?_, ?_, ?_, ?_⟩
  · rw [h.linkCount_eq, h'.linkCount_eq]
  · rw [h.nextHandle_eq, h'.nextHandle_eq]
  · intro place hnot
    rcases hl : s₀.link? place.1 place.2 with _ | l
    · rw [h.link?_of_vacant hl hnot, h'.link?_of_vacant hl hnot]
    · have hlinked : (s₀.link? place.1 place.2).isSome ∨ place ∈ opened s₀ visited :=
        .inl (hl ▸ rfl)
      rw [h.link?_of_linked hlinked, h'.link?_of_linked hlinked, origin, origin, hl]
      rfl
  · intro place hmem
    have hvacant := (mem_opened.1 hmem).2
    refine ⟨_, h.link?_of_linked (.inr hmem), ?_⟩
    have hhandle : rename (handles place) = handles' place := hrename ⟨place, hmem⟩
    have hbare : bare (cellAt place) now (handles' place) =
        { bare (cellAt place) now (handles place) with handle := rename (handles place) } := by
      rw [hhandle]
      rfl
    rw [h'.link?_of_linked (.inr hmem), handle_combined, origin, origin, hvacant, Option.getD_none,
      Option.getD_none, hbare, combined_withHandle]
    rfl

/-- What a sweep leaves is settled. -/
theorem settled_of_sweep (hs : s.WellFormed) : ∀ g ∈ p.plan.unicastFrames, ∀ t l,
    (p.sweep now s).1.link? g t = some l → p.Settled now l := by
  intro g hg t l hl
  rw [(sweep_reworked hs).link?_of hg] at hl
  obtain ⟨old, -, hleave⟩ := Option.bind_eq_some_iff.1 hl
  exact settled_of_leave hleave

/-- A packet of routing. -/
def Event.IsControl (e : Event) : Prop :=
  ∃ packet now, e.packet? = some (packet, now) ∧ packet.isControl = true

/-- Packets of routing make no use of a cell. -/
theorem use?_of_control (h : e.IsControl) : e.use? p d = none := by
  obtain ⟨packet, now, hpacket, hcontrol⟩ := h
  cases e with
  | received packet' slot =>
    obtain ⟨rfl, -⟩ := Prod.mk.inj (Option.some.inj hpacket)
    simp only [Event.use?, hcontrol]
  | sent packet' outcome slot =>
    obtain ⟨rfl, -⟩ := Prod.mk.inj (Option.some.inj hpacket)
    simp only [Event.use?, hcontrol]
  | expire | join | follow => rfl

/-- Another packet does the same before the sweep that it begins with and after it. -/
theorem perform_sweep (hs : s.WellFormed) (he : e.IsTraffic now a) (hdata : ¬e.IsControl) :
    (e.edit p d).perform (p.sweep now s).1 = (e.edit p d).perform s := by
  obtain ⟨packet, hpacket⟩ := he.packet?_eq
  have hcontrol : packet.isControl = false :=
    Bool.eq_false_iff.2 fun hcontrol => hdata ⟨packet, now, hpacket, hcontrol⟩
  rw [perform_packet hpacket hcontrol, perform_packet hpacket hcontrol,
    sweep_eq_self (sweep_reworked hs).wellFormed (settled_of_sweep hs)]

/-- Packets that are not all of routing leave the same before a sweep and after it. -/
theorem run_sweep (hs : s.WellFormed) (hes : ∀ e ∈ es, e.IsTraffic now a)
    (hdata : ¬∀ e ∈ es, e.IsControl) : p.run d s es = p.run d (p.sweep now s).1 es := by
  induction es with
  | nil => exact absurd nofun hdata
  | cons e es ih =>
    show p.run d ((e.edit p d).perform s).1 es =
      p.run d ((e.edit p d).perform (p.sweep now s).1).1 es
    by_cases hcontrol : e.IsControl
    · obtain ⟨packet, slot, hpacket, hisControl⟩ := hcontrol
      rw [perform_control hpacket hisControl, perform_control hpacket hisControl]
      refine ih (fun e he => hes e (List.mem_cons_of_mem _ he)) fun hall => hdata fun e' he' => ?_
      rcases List.mem_cons.1 he' with rfl | he'
      · exact ⟨packet, slot, hpacket, hisControl⟩
      · exact hall e' he'
    · rw [perform_sweep hs (hes e (List.mem_cons_self ..)) hcontrol]

/-- They end the same, in any case. -/
theorem endings_sweep (hs : s.WellFormed) (hes : ∀ e ∈ es, e.IsTraffic now a) :
    p.endings d s es = p.endings d (p.sweep now s).1 es := by
  induction es with
  | nil => rfl
  | cons e es ih =>
    unfold endings
    by_cases hcontrol : e.IsControl
    · obtain ⟨packet, slot, hpacket, hisControl⟩ := hcontrol
      rw [perform_control hpacket hisControl, perform_control hpacket hisControl,
        ih fun e he => hes e (List.mem_cons_of_mem _ he)]
    · rw [perform_sweep hs (hes e (List.mem_cons_self ..)) hcontrol]

/-- Packets of routing change nothing and visit no place. -/
theorem run_of_control (hall : ∀ e ∈ es, e.IsControl) :
    p.run d s es = s ∧ p.visits d es = ∅ := by
  induction es with
  | nil => exact ⟨rfl, rfl⟩
  | cons e es ih =>
    obtain ⟨packet, slot, hpacket, hisControl⟩ := hall e (List.mem_cons_self ..)
    obtain ⟨hrun, hvisits⟩ := ih fun e he => hall e (List.mem_cons_of_mem _ he)
    constructor
    · show p.run d ((e.edit p d).perform s).1 es = s
      rw [perform_control hpacket hisControl]
      exact hrun
    · rw [visits_cons, hvisits, Finset.union_empty]
      exact visits_of_none (use?_of_control (hall e (List.mem_cons_self ..)))

/-- Where no link was made, no handle differs. -/
theorem renamedAt_empty (rename : UInt32 → UInt32) (s : Schedule) : RenamedAt ∅ rename s s :=
  ⟨.refl s, rfl, rfl, fun _ => rfl, fun h => absurd h (Finset.notMem_empty _)⟩

/-- In whatever order packets of one slot are processed, from a schedule whose unicast slotframes
have the lengths of the plan: all end well, and what they leave differs by a renaming of the handles
of the links that they make. -/
theorem endings_and_renamed (hs : s.WellFormed)
    (hlengths : ∀ g ∈ p.plan.unicastFrames, s.length? g = p.plan.unicastLength? g)
    (hes : ∀ e ∈ es, e.IsTraffic now a)
    (hroom : (p.sweep now s).1.linkCount + (opened (p.sweep now s).1 (p.visits d es)).card ≤
      (p.sweep now s).1.maxLinks) (hperm : es'.Perm es) :
    (∀ ending ∈ p.endings d s es', ending = .ok ()) ∧
      ∃ rename : Equiv.Perm UInt32,
        RenamedAt (opened (p.sweep now s).1 (p.visits d es)) rename (p.run d s es)
          (p.run d s es') := by
  have hwork := @sweep_reworked p now s hs
  have hvisits : p.visits d es' = p.visits d es :=
    List.toFinset_eq_of_perm _ _ (hperm.filterMap _)
  have hes' : ∀ e ∈ es', e.IsTraffic now a := fun e he => hes e (hperm.mem_iff.1 he)
  have hlengths' : ∀ g ∈ p.plan.unicastFrames,
      (p.sweep now s).1.length? g = p.plan.unicastLength? g := by
    intro g hg
    rw [hwork.sameFrames.length?_eq, hlengths g hg]
  have hstart : p.Worked a now (p.sweep now s).1 ∅ (fun _ => 0) (p.sweep now s).1 :=
    worked_start hwork.wellFormed (settled_of_sweep hs) _
  obtain ⟨-, handles, hrun⟩ := hstart.run hlengths' hes (by rwa [Finset.empty_union])
  obtain ⟨hendings, handles', hrun'⟩ :=
    hstart.run hlengths' hes' (by rwa [Finset.empty_union, hvisits])
  rw [Finset.empty_union] at hrun
  rw [Finset.empty_union, hvisits] at hrun'
  refine ⟨by rwa [endings_sweep hs hes'], ?_⟩
  by_cases hall : ∀ e ∈ es, e.IsControl
  · obtain ⟨hsame, hnone⟩ := @run_of_control p d s es hall
    obtain ⟨hsame', -⟩ := @run_of_control p d s es' fun e he => hall e (hperm.mem_iff.1 he)
    rw [hsame, hsame', hnone, opened_empty]
    exact ⟨1, renamedAt_empty _ s⟩
  · have hall' : ¬∀ e ∈ es', e.IsControl := fun h => hall fun e he => h e (hperm.mem_iff.2 he)
    rw [run_sweep hs hes hall, run_sweep hs hes' hall']
    exact hrun.renamed hrun'

/-- **Packets of one slot commute.**  After a layout that succeeded and any run of events, let
packets of one slot come in: any that are received, any that are sent, where those delivered and not
of routing go to one neighbour `a`.  If a sweep in that slot leaves room for a link at each vacant
place that they visit, then in whatever order they are processed, all end well, and what is left is
the same but for a renaming of the handles of the links at these places. -/
theorem packets_commute {maxFrames maxLinks : Nat} {d₀ : Directory} {es₀ : List Event}
    (hstart : p.layOut.perform (.empty maxFrames maxLinks) = (s₀, .ok ()))
    (hreached : s = p.run d₀ s₀ es₀) (hes : ∀ e ∈ es, e.IsTraffic now a)
    (hroom : (p.sweep now s).1.linkCount + (opened (p.sweep now s).1 (p.visits d es)).card ≤
      (p.sweep now s).1.maxLinks) (hperm : es'.Perm es) :
    (∀ ending ∈ p.endings d s es', ending = .ok ()) ∧
      ∃ rename : Equiv.Perm UInt32,
        RenamedAt (opened (p.sweep now s).1 (p.visits d es)) rename (p.run d s es)
          (p.run d s es') := by
  have hs : p.Orderly s := hreached ▸ (orderly_layOut hstart).run es₀
  exact endings_and_renamed hs.wellFormed (fun _ hg => hs.length?_eq hg) hes hroom hperm

/-! Three packets of one slot, of which the first is received in a cell whose lease ran out.  In the
reverse order its link is made last. -/

/-- The schedule before the packets come in. -/
def lateSchedule : Schedule :=
  shortPlanner.run ⟨[], none⟩ (shortPlanner.layOut.perform (.empty 4 8)).1
    [.received arrival (.ofNat 0)]

/-- The packets. -/
def burst : List Event :=
  [.received arrival (.ofNat 10),
    .sent ⟨.ofLastByte 4, .ofLastByte 2, false⟩ .delivered (.ofNat 10),
    .received ⟨.ofLastByte 3, .ofLastByte 4, false⟩ (.ofNat 10)]

/-- In either order the three packets are taken in, and the last link differs in its handle
alone. -/
theorem packets_commute_burst :
    (∀ ending ∈ shortPlanner.endings ⟨[], none⟩ lateSchedule burst.reverse, ending = .ok ()) ∧
      ((shortPlanner.run ⟨[], none⟩ lateSchedule burst).link? 2 1).map (·.handle) = some 3 ∧
      ((shortPlanner.run ⟨[], none⟩ lateSchedule burst.reverse).link? 2 1).map (·.handle) =
        some 5 ∧
      ∃ rename : Equiv.Perm UInt32, rename 3 = 5 := by
  have hstart : (shortPlanner.layOut.perform (.empty 4 8)).2 = .ok () := by decide +kernel
  have htraffic : ∀ e ∈ burst, e.IsTraffic (.ofNat 10) (.ofLastByte 2) := by
    intro e he
    simp only [burst, List.mem_cons, List.not_mem_nil, or_false] at he
    rcases he with rfl | rfl | rfl
    · rfl
    · exact ⟨rfl, fun _ _ => rfl⟩
    · rfl
  have hreached : lateSchedule = shortPlanner.run ⟨[], none⟩
      (shortPlanner.layOut.perform (.empty 4 8)).1 [.received arrival (.ofNat 0)] := rfl
  have hroom : (shortPlanner.sweep (.ofNat 10) lateSchedule).1.linkCount +
      (opened (shortPlanner.sweep (.ofNat 10) lateSchedule).1
        (shortPlanner.visits ⟨[], none⟩ burst)).card ≤
      (shortPlanner.sweep (.ofNat 10) lateSchedule).1.maxLinks := by decide +kernel
  obtain ⟨hendings, rename, hrenamed⟩ := packets_commute (Prod.ext rfl hstart) hreached htraffic
    hroom (List.reverse_perm burst)
  have hhandle : ((shortPlanner.run ⟨[], none⟩ lateSchedule burst).link? 2 1).map (·.handle) =
      some 3 := by decide +kernel
  have hhandle' : ((shortPlanner.run ⟨[], none⟩ lateSchedule burst.reverse).link? 2 1).map
      (·.handle) = some 5 := by decide +kernel
  have hopened : (2, 1) ∈ opened (shortPlanner.sweep (.ofNat 10) lateSchedule).1
      (shortPlanner.visits ⟨[], none⟩ burst) := by decide +kernel
  refine ⟨hendings, hhandle, hhandle', rename, ?_⟩
  obtain ⟨l, hl, hl'⟩ := hrenamed.link?_of_mem hopened
  simp only at hl hl'
  rw [hl] at hhandle
  rw [hl'] at hhandle'
  rw [← Option.some.inj hhandle]
  exact Option.some.inj hhandle'

end SlottedMesh.Planner
