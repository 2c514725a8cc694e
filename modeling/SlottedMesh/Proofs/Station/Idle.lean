import SlottedMesh.Proofs.Cells.Lent
import SlottedMesh.Proofs.Station.Beacons
import SlottedMesh.Proofs.Station.LeaseLifetime

/-!
# Stations to which nothing happens

A station to which nothing happens but that slots begin loses its leases: nothing is used any more,
so that every direction of a lent link grows older by a slot with every slot, and none can be older
than `Aged` allows.  A lent link that carries no direction would be left, but there is none such.

* `Idle` says how long ago the directions of lent links were last used, at least; `Idle.tick` and
  `Idle.run_ticks` say that this grows with the slots.
* `unleased_run_ticks`: when as many slots have begun as the lifetime of leases and the sweep
  interval together, no link is lent.
* `exists_further_of_unleased`: the links of a station that has none lent are those of its layout
  and at most the one on which it hears its time source.
-/

namespace SlottedMesh

namespace Planner

open Schedule

variable {p : Planner} {slot? : Option SlotNumber} {g t : UInt16} {o o' : Option Link}

/-- In the unicast slotframes, only lent links are made. -/
theorem Touch.leased (h : p.Touch slot? g t o o') (hg : g ∈ p.plan.unicastFrames)
    (ho : ∀ l ∈ o, l.lease.isSome) : ∀ l ∈ o', l.lease.isSome := by
  intro l' hl'
  cases h with
  | @judged now l hnow hframe =>
    rw [lease_of_leave hl']
    exact ho l rfl
  | @renewed now l hnow hframe =>
    cases hl'
    rw [Link.renewed, Option.isSome_map]
    exact ho l rfl
  | used hnow hu hcell hframe htimeslot =>
    cases hl'
    rw [lease_merged]
    rcases o with _ | l
    · rfl
    · rw [stamped, Option.isSome_map]
      exact ho l rfl
  | muted hframe hown haway => cases hl'
  | heard hframe hown haway => exact absurd hframe (CellPlan.ne_beaconFrame hg)

/-- Outside the unicast slotframes and the beacon slotframe nothing changes. -/
theorem Touch.eq_of_not_mem (h : p.Touch slot? g t o o') (hg : g ∉ p.plan.unicastFrames)
    (hbeacon : g ≠ CellPlan.beaconFrame) : o' = o := by
  cases h with
  | judged hnow hframe => exact absurd hframe hg
  | renewed hnow hframe => exact absurd hframe hg
  | used hnow hu hcell hframe htimeslot =>
    rw [hframe] at hg
    exact absurd (CellPlan.cell?_eq_some hcell).1 hg
  | muted hframe hown haway => exact absurd hframe hbeacon
  | heard hframe hown haway => exact absurd hframe hbeacon

end Planner

namespace Station

variable {settings : Settings} {driver : Gate.Driver} {s s₀ : Station} {m n : Nat}

/-- The next slots begin, so many of them. -/
def ticks (now : SlotNumber) : Nat → List Event
  | 0 => []
  | n + 1 => .tick (now.advance 1) :: ticks (now.advance 1) n

/-- All directions that lent links carry were last used so many slots ago, or more. -/
def Idle (m : Nat) (s : Station) : Prop :=
  ∀ g t l lease direction, s.schedule.link? g t = some l → l.lease = some lease →
    l.options.has direction = true → m ≤ s.now.elapsed (lease.last direction)

/-- Every node was idle for no slots. -/
theorem idle_zero (s : Station) : s.Idle 0 := fun _ _ _ _ _ _ _ _ => Nat.zero_le _

/-- Slots that begin one after another are in pace. -/
theorem paced_ticks (s : Station) (n : Nat) : s.Paced (ticks s.now n) := by
  induction n generalizing s with
  | zero => trivial
  | succ n ih =>
    have hrest := ih (s.step (.tick (s.now.advance 1)))
    rw [now_step] at hrest
    exact ⟨.inr rfl, hrest⟩

/-- What a lent link carries when a slot begins, it carried before, with the same lease. -/
theorem exists_of_tick (hs : s.schedule.WellFormed) {now : SlotNumber} {g t : UInt16} {l : Link}
    {lease : Link.Lease} {direction : Direction} (hl : (s.tick now).schedule.link? g t = some l)
    (hlease : l.lease = some lease) (hhas : l.options.has direction = true) :
    ∃ l₀, s.schedule.link? g t = some l₀ ∧ l₀.lease = some lease ∧
      l₀.options.has direction = true := by
  rw [tick_eq] at hl
  split at hl
  · exact ⟨l, hl, hlease, hhas⟩
  · have hwork := @Planner.sweep_reworked s.planner now s.schedule hs
    have hl : (s.planner.sweep now s.schedule).1.link? g t = some l := hl
    by_cases hg : g ∈ s.planner.plan.unicastFrames
    · rw [hwork.link?_of hg] at hl
      obtain ⟨l₀, hl₀, hleave⟩ := Option.bind_eq_some_iff.1 hl
      have hlease₀ := (Planner.lease_of_leave hleave).symm.trans hlease
      exact ⟨l₀, hl₀, hlease₀, (Planner.live_of_leave hlease₀ hleave hhas).1⟩
    · rw [hwork.link?_of_not hg] at hl
      exact ⟨l, hl, hlease, hhas⟩

/-- When the next slot begins, all is a slot older. -/
theorem Idle.tick (h : s.Idle m) (hs : s.Aged) (hfits : s.LifetimeFits) :
    (s.tick (s.now.advance 1)).Idle (m + 1) := by
  intro g t l lease direction hl hlease hhas
  obtain ⟨l₀, hl₀, hlease₀, hhas₀⟩ := exists_of_tick hs.orderly.wellFormed hl hlease hhas
  have hg := hs.orderly.mem_of_leased hl₀ (Option.isSome_of_eq_some hlease₀)
  have hage := hs.young hg l₀ hl₀ lease hlease₀ direction hhas₀
  have hphase := hs.elapsed_lt
  unfold LifetimeFits at hfits
  have hnow : (s.tick (s.now.advance 1)).now = s.now.advance 1 :=
    now_step s (.tick (s.now.advance 1))
  rw [hnow, SlotNumber.elapsed_advance_one (by rw [SlotNumber.modulus_eq]; omega)]
  exact Nat.succ_le_succ (h g t l₀ lease direction hl₀ hlease₀ hhas₀)

/-- When so many slots have begun, all is so many slots older. -/
theorem Idle.run_ticks (h : s.Idle m) (hs : s.Aged) (hfits : s.LifetimeFits) (n : Nat) :
    (s.run (ticks s.now n)).Idle (m + n) := by
  induction n generalizing s m with
  | zero => exact h
  | succ n ih =>
    have hnext := hs.step (e := .tick (s.now.advance 1)) hfits (.inr rfl)
    have hrest := ih (s := s.step (.tick (s.now.advance 1))) (h.tick hs hfits) hnext
      (hfits.step _)
    rw [now_step, Nat.add_assoc, Nat.add_comm 1] at hrest
    exact hrest

/-! ## No lease is left -/

/-- A lent link carries a direction. -/
theorem exists_direction_of_leased (h : CameUp settings driver s₀) (es : List Event) {g t : UInt16}
    {l : Link} (hl : (s₀.run es).schedule.link? g t = some l) (hlease : l.lease.isSome) :
    ∃ direction, l.options.has direction = true := by
  have hstart : ∀ l ∈ s₀.schedule.link? g t, l.lease.isSome →
      g ∈ s₀.planner.plan.unicastFrames ∧ s₀.planner.Lent g t l := by
    intro l hl hlease
    rw [(Planner.pristine_layOut h.layOut_eq).1.lease_eq hl] at hlease
    cases hlease
  rw [schedule_run] at hl
  obtain ⟨-, hlent⟩ := Planner.run_preserves h.wellFormed (fun _ _ _ htouch => htouch.lent) hstart
    (s₀.planned es) l hl hlease
  rcases hlent.carries with htx | hrx
  · exact ⟨.tx, htx⟩
  · exact ⟨.rx, hrx⟩

/-- When as many slots have begun as the lifetime and the sweep interval together, and nothing else
has happened, no link is lent. -/
theorem unleased_run_ticks (hup : bringUp settings driver = .ok s₀) (hfits : s₀.LifetimeFits)
    {es : List Event} (hpaced : s₀.Paced es)
    (hn : s₀.planner.lifetime.toNat + s₀.sweepInterval.toNat ≤ n) {g t : UInt16} {l : Link}
    (hl : (s₀.run (es ++ ticks (s₀.run es).now n)).schedule.link? g t = some l) :
    l.lease = none := by
  by_contra hsome
  obtain ⟨lease, hlease⟩ := Option.ne_none_iff_exists'.1 hsome
  obtain ⟨direction, hhas⟩ := exists_direction_of_leased (cameUp_of_bringUp hup) _ hl
    (Option.isSome_of_eq_some hlease)
  rw [run_append] at hl
  have hfits' := hfits.run es
  have hs := (aged_bringUp hup).run hfits hpaced
  have hs' := hs.run hfits' (paced_ticks _ n)
  have hidle := (idle_zero _).run_ticks hs hfits' n g t l lease direction hl hlease hhas
  have hage := hs'.young (hs'.orderly.mem_of_leased hl (Option.isSome_of_eq_some hlease)) l hl lease
    hlease direction hhas
  have hphase := hs'.elapsed_lt
  rw [planner_run, planner_run] at hage
  rw [sweepInterval_run, sweepInterval_run] at hphase
  omega

/-! ## The links that are left -/

/-- A station that came up has one link in the beacon slotframe, in its own timeslot. -/
theorem CameUp.isSome_link?_beaconFrame (h : CameUp settings driver s₀) {own : UInt16}
    (hown : s₀.planner.plan.beaconSlot? s₀.planner.index = some own) (t : UInt16) :
    (s₀.schedule.link? CellPlan.beaconFrame t).isSome ↔ t = own := by
  have hattributes := Planner.attributes?_layOut_beaconFrame h.layOut_eq t
  rw [hown] at hattributes
  rw [← Schedule.isSome_attributes?, hattributes]
  split
  · rename_i heq
    exact iff_of_true rfl (Option.some.inj heq).symm
  · rename_i hne
    exact iff_of_false nofun fun heq => hne (congrArg some heq.symm)

/-- After any events, the links of the layout are there. -/
theorem exists_retained_run (h : CameUp settings driver s₀) (es : List Event) {g t : UInt16}
    {l : Link} (hl : s₀.schedule.link? g t = some l) :
    ∃ l', (s₀.run es).schedule.link? g t = some l' ∧ l'.channelOffset = l.channelOffset ∧
      s₀.planner.Retained g l l' := by
  have horderly := Planner.orderly_layOut h.layOut_eq
  have hown : g = CellPlan.beaconFrame →
      s₀.planner.plan.beaconSlot? s₀.planner.index = some t := by
    rintro rfl
    have hslot := h.beaconSlot?_eq s₀.planner.index
    rw [hslot, (h.isSome_link?_beaconFrame hslot t).1 (Option.isSome_of_eq_some hl)]
  have hstart : ∃ l', s₀.schedule.link? g t = some l' ∧ s₀.planner.Retained g l l' :=
    ⟨l, hl, Planner.retained_self ((Planner.pristine_layOut h.layOut_eq).1.lease_eq hl)⟩
  rw [schedule_run]
  obtain ⟨l', hl', hretained⟩ := Planner.run_preserves horderly.wellFormed
    (fun _ _ _ htouch => htouch.retained hown) hstart (s₀.planned es)
  have hoffset := (horderly.run (s₀.planned es)).channelOffset_eq hl'
  exact ⟨l', hl', hoffset.trans (horderly.channelOffset_eq hl).symm, hretained⟩

/-- Where there was no link outside the beacon slotframe, there are only lent ones. -/
theorem isSome_lease_of_vacant (h : CameUp settings driver s₀) (es : List Event) {g t : UInt16}
    (hg : g ≠ CellPlan.beaconFrame) (hvacant : s₀.schedule.link? g t = none) {l : Link}
    (hl : (s₀.run es).schedule.link? g t = some l) : l.lease.isSome := by
  have hstart : ∀ l ∈ s₀.schedule.link? g t, l.lease.isSome := by
    rw [hvacant]
    exact nofun
  have htouches : ∀ slot? o o', s₀.planner.Touch slot? g t o o' →
      (∀ l ∈ o, l.lease.isSome) → ∀ l ∈ o', l.lease.isSome := by
    intro slot? o o' htouch ho
    by_cases hunicast : g ∈ s₀.planner.plan.unicastFrames
    · exact htouch.leased hunicast ho
    · rw [htouch.eq_of_not_mem hunicast hg]
      exact ho
  rw [schedule_run] at hl
  exact Planner.run_preserves h.wellFormed htouches hstart (s₀.planned es) l hl

/-- **What is left without leases.**  After any events of a station that came up, if no link is
lent, there are links where its layout has them, and besides these there is at most one, on which
the station hears the time source that is noted. -/
theorem exists_further_of_unleased (hup : bringUp settings driver = .ok s₀) (es : List Event)
    (hunleased : ∀ g t l, (s₀.run es).schedule.link? g t = some l → l.lease = none) :
    ∃ further : Option UInt16,
      (∀ g t, ((s₀.run es).schedule.link? g t).isSome ↔
        (s₀.schedule.link? g t).isSome ∨ g = CellPlan.beaconFrame ∧ further = some t) ∧
      ∀ t ∈ further, s₀.schedule.link? CellPlan.beaconFrame t = none ∧
        (s₀.run es).schedule.attributes? CellPlan.beaconFrame t = some Planner.hearing ∧
        (s₀.run es).sourceIndex?.bind s₀.planner.plan.beaconSlot? = some t := by
  have h := cameUp_of_bringUp hup
  have hown := h.beaconSlot?_eq s₀.planner.index
  obtain ⟨further, hothers, hsource⟩ := (listening_run hup es).exists_further hown
  have hhears : ∀ t, further = some t →
      (s₀.run es).schedule.attributes? CellPlan.beaconFrame t = some Planner.hearing := by
    intro t ht
    rw [hothers t (hsource t ht).1, if_pos ht]
  refine ⟨further, fun g t => ?_, fun t ht => ?_⟩
  · constructor
    · intro hsome
      by_contra hnot
      obtain ⟨hvacant, hfurther⟩ := not_or.1 hnot
      have hvacant := Option.not_isSome_iff_eq_none.1 hvacant
      obtain ⟨l, hl⟩ := Option.isSome_iff_exists.1 hsome
      by_cases hg : g = CellPlan.beaconFrame
      · -- such a link would be in the own timeslot, which is not vacant, or the further one
        subst hg
        have haway : t ≠ s₀.planner.index % settings.plan.beaconPeriod := by
          rw [Ne, ← h.isSome_link?_beaconFrame hown, hvacant]
          exact nofun
        rw [← Schedule.isSome_attributes?, hothers t haway,
          if_neg fun heq => hfurther ⟨rfl, heq⟩] at hsome
        cases hsome
      · have hlease := isSome_lease_of_vacant h es hg hvacant hl
        rw [hunleased g t l hl] at hlease
        cases hlease
    · rintro (hsome | ⟨rfl, hfurther⟩)
      · obtain ⟨l, hl⟩ := Option.isSome_iff_exists.1 hsome
        obtain ⟨l', hl', -⟩ := exists_retained_run h es hl
        exact Option.isSome_of_eq_some hl'
      · rw [← Schedule.isSome_attributes?, hhears t hfurther]
        rfl
  · obtain ⟨haway, hslot⟩ := hsource t ht
    refine ⟨?_, hhears t ht, hslot⟩
    rw [← Option.not_isSome_iff_eq_none, h.isSome_link?_beaconFrame hown]
    exact haway

end Station

end SlottedMesh
