import SlottedMesh.Proofs.Cells.Persistence
import SlottedMesh.Proofs.Station.Run

/-!
# How long leases live

A lease is kept for its lifetime after the last use and not much longer.  Sweeps come with packets
and with the beginning of a slot when the sweep interval has passed since the last sweep of that
kind; so between the two bounds lies one interval.

* `Aged` is what holds of a station after every event: it is less than an interval since the last
  sweep at the beginning of a slot or join, and no direction of a leased link was last used longer
  ago than the lifetime and that time together.  Ages are true numbers of slots, and as they stay
  below `2 ^ 31`, the distance in the low words that sweeps go by is the true one, however often
  slot numbers wrap.
* `aged_bringUp`, `Aged.step` and `Aged.run`: it holds when a station comes up, and events in pace
  keep it so.
* `lease_lifetime` is the main statement: the bound on ages after every event, and that a direction
  that was used, or whose lease was started afresh by a join, stays until more slots than the
  lifetime have passed.
-/

namespace SlottedMesh

namespace Planner

variable {p : Planner} {now : SlotNumber} {slot? : Option SlotNumber} {s s' : Schedule}

/-- No direction that a leased link carries was last used more than this many slots ago. -/
def Young (now : SlotNumber) (bound : Nat) (o : Option Link) : Prop :=
  ∀ l ∈ o, ∀ lease ∈ l.lease, ∀ direction : Direction, l.options.has direction = true →
    now.elapsed (lease.last direction) ≤ bound

/-- A touch in this slot makes nothing older. -/
theorem Touch.young {bound : Nat} (hslot : ∀ n ∈ slot?, n = now) {g t : UInt16} {o o' : Option Link}
    (h : p.Touch slot? g t o o') (hg : g ∈ p.plan.unicastFrames) (ho : Young now bound o) :
    Young now bound o' := by
  intro l' hl' lease hlease direction hhas
  cases h with
  | @judged _ l hnow hframe =>
    have hlease : l.lease = some lease := (lease_of_leave hl').symm.trans hlease
    exact ho l rfl lease hlease direction (live_of_leave hlease hl' hhas).1
  | @renewed n l hnow hframe =>
    cases hl'
    obtain ⟨_, _, rfl⟩ := Option.map_eq_some_iff.1 hlease
    rw [hslot n hnow, Link.Lease.last_fresh, SlotNumber.elapsed_self]
    exact Nat.zero_le _
  | @used n _ cell u handle hnow hu hcell hframe htimeslot =>
    cases hl'
    rcases last_of_merged (fun d => (has_optionsFor p u.direction d).1) hlease hhas with
      hlast | ⟨old, lease₀, rfl, hlease₀, hold, hlast⟩
    · rw [hlast, hslot n hnow, SlotNumber.elapsed_self]
      exact Nat.zero_le _
    · rw [hlast]
      exact ho old rfl lease₀ hlease₀ direction hold
  | muted hframe hown haway => cases hl'
  | heard hframe hown haway => exact absurd hframe (CellPlan.ne_beaconFrame hg)

/-- A sweep leaves nothing older than the lifetime, if it can tell how old it is. -/
theorem young_sweep (hs : s.WellFormed) {bound : Nat} (hbound : bound < 2 ^ 31) {g t : UInt16}
    (hg : g ∈ p.plan.unicastFrames) (hyoung : Young now bound (s.link? g t)) :
    Young now p.lifetime.toNat ((p.sweep now s).1.link? g t) := by
  intro l' hl' lease hlease direction hhas
  rw [(sweep_reworked hs).link?_of hg] at hl'
  obtain ⟨l, hl, hleave⟩ := Option.bind_eq_some_iff.1 hl'
  have hlease : l.lease = some lease := (lease_of_leave hleave).symm.trans hlease
  obtain ⟨hhas, hlive⟩ := live_of_leave hlease hleave hhas
  have hage := hyoung l hl lease hlease direction hhas
  unfold isStale at hlive
  rw [SlotNumber.since_eq_elapsed (Nat.lt_of_le_of_lt hage hbound)] at hlive
  have hlive := of_decide_eq_false hlive
  omega

/-- After a join, everything was just used. -/
theorem young_renewAll (hs : s.WellFormed) {g t : UInt16} (hg : g ∈ p.plan.unicastFrames) :
    Young now 0 ((p.renewAll now s).link? g t) := by
  intro l' hl' lease hlease direction hhas
  rw [(renewAll_reworked hs).link?_of hg] at hl'
  obtain ⟨l, hl, heq⟩ := Option.bind_eq_some_iff.1 hl'
  cases heq
  obtain ⟨_, _, rfl⟩ := Option.map_eq_some_iff.1 hlease
  rw [Link.Lease.last_fresh, SlotNumber.elapsed_self]

/-- The lease at a cell that a use was made of says that it was made now. -/
theorem last_of_make {u : Use} {cell : Cell} (hs : s.WellFormed)
    (hcell : p.plan.cell? u.owner = some cell) {l : Link} {lease : Link.Lease}
    (hl : ((p.make now (some u)).perform s).1.link? cell.frame cell.timeslot = some l)
    (hlease : l.lease = some lease) : lease.last u.direction = now := by
  unfold make at hl
  simp only [hcell] at hl
  have hl : ((merge cell (p.optionsFor u.direction) u.peer u.direction now).perform s).1.link?
      cell.frame cell.timeslot = some l := hl
  rcases perform_merge cell (p.optionsFor u.direction) u.peer u.direction now hs with
    ⟨reason, hmerge, hvacant⟩ | ⟨s₁, hmerge, hset⟩
  · rw [hmerge] at hl
    cases hvacant.symm.trans hl
  · rw [hmerge] at hl
    have hl : s₁.link? cell.frame cell.timeslot = some l := hl
    rw [hset.link?_self] at hl
    cases hl
    exact last_of_stamped hlease

end Planner

namespace Station

/-- What holds of a station after every event. -/
structure Aged (s : Station) : Prop where
  /-- The schedule is orderly. -/
  orderly : s.planner.Orderly s.schedule
  /-- It is less than an interval since the last sweep at the beginning of a slot, or join. -/
  elapsed_lt : s.now.elapsed s.lastSweep < s.sweepInterval.toNat
  /-- No direction was last used longer ago than the lifetime and that time. -/
  young {g t : UInt16} : g ∈ s.planner.plan.unicastFrames →
    Planner.Young s.now (s.planner.lifetime.toNat + s.now.elapsed s.lastSweep)
      (s.schedule.link? g t)

/-- The lifetime of leases and the sweep interval together are numbers of slots that the low words
can tell. -/
def LifetimeFits (s : Station) : Prop :=
  s.planner.lifetime.toNat + s.sweepInterval.toNat < 2 ^ 31

variable {s : Station} {e : Event}

/-- An event leaves the lifetime, -/
theorem LifetimeFits.step (hfits : s.LifetimeFits) (e : Event) : (s.step e).LifetimeFits := by
  unfold LifetimeFits
  rw [planner_step, sweepInterval_step]
  exact hfits

/-- and so does a run. -/
theorem LifetimeFits.run (hfits : s.LifetimeFits) (es : List Event) : (s.run es).LifetimeFits := by
  unfold LifetimeFits
  rw [planner_run, sweepInterval_run]
  exact hfits

/-- There is at least one slot between two sweeps. -/
theorem sweepInterval_pos (s : Station) : 0 < s.sweepInterval.toNat := by
  show 0 < (if 1 ≤ s.planner.lifetime / 4 then s.planner.lifetime / 4 else 1).toNat
  split
  · rename_i hle
    exact UInt32.le_iff_toNat_le.1 hle
  · decide

/-! ## Coming up -/

/-- When a station comes up, there is no lease. -/
theorem aged_bringUp {settings : Settings} {driver : Gate.Driver}
    (h : bringUp settings driver = .ok s) : s.Aged := by
  have hup := cameUp_of_bringUp h
  refine ⟨Planner.orderly_layOut hup.layOut_eq, ?_, fun {g t} _ l hl lease hlease => ?_⟩
  · rw [hup.now_eq, hup.lastSweep_eq, SlotNumber.elapsed_self]
    exact s.sweepInterval_pos
  · rw [(Planner.pristine_layOut hup.layOut_eq).1.lease_eq hl] at hlease
    cases hlease

/-! ## Events -/

/-- An event in the slot that the station is in, after which the last sweep is what it was. -/
theorem Aged.touches {s' : Station} (hs : s.Aged) {slot? : Option SlotNumber}
    (hslot : ∀ n ∈ slot?, n = s.now) (hplanner : s'.planner = s.planner) (hnow : s'.now = s.now)
    (hlastSweep : s'.lastSweep = s.lastSweep)
    (htouches : s.planner.Touches slot? s.schedule s'.schedule) : s'.Aged := by
  refine ⟨?_, ?_, fun {g t} hg => ?_⟩
  · rw [hplanner]
    exact hs.orderly.touches htouches
  · unfold sweepInterval
    rw [hplanner, hnow, hlastSweep]
    exact hs.elapsed_lt
  · rw [hplanner] at hg ⊢
    rw [hnow, hlastSweep]
    exact htouches.preserves (fun _ _ htouch => htouch.young hslot hg) (hs.young hg)

/-- A join starts every lease afresh, and so keeps the ages. -/
theorem Aged.join (hs : s.Aged) (now : SlotNumber) : (s.join now).Aged := by
  have hwellFormed := hs.orderly.wellFormed
  have htouches : s.planner.Touches (some now) s.schedule (s.planner.renewAll now s.schedule) :=
    Planner.touching_renewAll rfl s.schedule hwellFormed
  refine ⟨hs.orderly.touches htouches, ?_, fun {g t} hg l hl lease hlease direction hhas => ?_⟩
  · show now.elapsed now < s.sweepInterval.toNat
    rw [SlotNumber.elapsed_self]
    exact s.sweepInterval_pos
  · exact Nat.le_trans (Planner.young_renewAll hwellFormed hg l hl lease hlease direction hhas)
      (Nat.zero_le _)

/-- The beginning of a slot in pace.  In the same slot nothing happens, as it is less than an
interval since the last sweep; in the next one everything is a slot older, and if the interval has
passed now, the sweep leaves nothing that is older than the lifetime. -/
theorem Aged.tick (hs : s.Aged) (hfits : s.LifetimeFits) {now : SlotNumber}
    (hpace : now = s.now ∨ now = s.now.advance 1) : (s.tick now).Aged := by
  have hwellFormed := hs.orderly.wellFormed
  have hphase := hs.elapsed_lt
  unfold LifetimeFits at hfits
  have holder : now.elapsed s.lastSweep ≤ s.now.elapsed s.lastSweep + 1 ∧
      ∀ g t, g ∈ s.planner.plan.unicastFrames →
        Planner.Young now (s.planner.lifetime.toNat + now.elapsed s.lastSweep)
          (s.schedule.link? g t) := by
    rcases hpace with rfl | rfl
    · exact ⟨Nat.le_succ _, fun g t hg => hs.young hg⟩
    · have hnext : (s.now.advance 1).elapsed s.lastSweep = s.now.elapsed s.lastSweep + 1 :=
        SlotNumber.elapsed_advance_one (by rw [SlotNumber.modulus_eq]; omega)
      refine ⟨Nat.le_of_eq hnext, fun g t hg l hl lease hlease direction hhas => ?_⟩
      have hage := hs.young hg l hl lease hlease direction hhas
      rw [SlotNumber.elapsed_advance_one (by rw [SlotNumber.modulus_eq]; omega), hnext]
      omega
  obtain ⟨hnext, hyoung⟩ := holder
  have hsince : now.since s.lastSweep = now.elapsed s.lastSweep :=
    SlotNumber.since_eq_elapsed (by omega)
  rw [tick_eq]
  split
  · rename_i hearly
    rw [hsince] at hearly
    exact ⟨hs.orderly, by exact_mod_cast hearly, fun {g t} hg => hyoung g t hg⟩
  · have htouches : s.planner.Touches (some now) s.schedule (s.planner.sweep now s.schedule).1 :=
      Planner.touching_sweep rfl s.schedule hwellFormed
    refine ⟨hs.orderly.touches htouches, ?_, fun {g t} hg => ?_⟩
    · show now.elapsed now < s.sweepInterval.toNat
      rw [SlotNumber.elapsed_self]
      exact s.sweepInterval_pos
    · show Planner.Young now (s.planner.lifetime.toNat + now.elapsed now) _
      rw [SlotNumber.elapsed_self, Nat.add_zero]
      exact Planner.young_sweep hwellFormed (by omega) hg (hyoung g t hg)

/-- Events in pace leave a station aged. -/
theorem Aged.step (hs : s.Aged) (hfits : s.LifetimeFits) (hpace : s.InPace e) :
    (s.step e).Aged := by
  have hwellFormed := hs.orderly.wellFormed
  cases e with
  | tick now => exact hs.tick hfits hpace
  | join now => exact hs.join now
  | becomeRoot => exact ⟨hs.orderly, hs.elapsed_lt, hs.young⟩
  | heard a rank metric => exact ⟨hs.orderly, hs.elapsed_lt, hs.young⟩
  | transmitted receiver outcome attempts isControl =>
    refine hs.touches ?_ rfl rfl rfl
      (Planner.touching_edit (.sent ⟨s.address, receiver, isControl⟩ outcome s.now) _ hwellFormed)
    exact fun n hn => (Option.some.inj hn).symm
  | received packet =>
    refine hs.touches ?_ rfl rfl rfl
      (Planner.touching_edit (.received packet s.now) _ hwellFormed)
    exact fun n hn => (Option.some.inj hn).symm
  | followTimeSource a =>
    refine hs.touches ?_ rfl rfl rfl
      (Planner.touching_edit (.follow s.timeSource a) _ hwellFormed)
    intro n hn
    cases hn

/-- So do runs. -/
theorem Aged.run (hs : s.Aged) (hfits : s.LifetimeFits) {es : List Event} (hpaced : s.Paced es) :
    (s.run es).Aged := by
  induction es generalizing s with
  | nil => exact hs
  | cons e es ih =>
    obtain ⟨hpace, hpaced⟩ := hpaced
    exact ih (hs.step hfits hpace) (hfits.step e) hpaced

/-! ## The lifetime of a lease -/

/-- The use that an event makes of a cell, if it makes one. -/
def use? (s : Station) (e : Event) : Option Planner.Use :=
  (s.planned? e).bind (·.use? s.planner s.directory)

/-- The event uses the cell at this place in this direction, or it is a join, which starts leases
afresh in both. -/
def Refreshes (s : Station) (direction : Direction) (g t : UInt16) (e : Event) : Prop :=
  e.isJoin = true ∨ ∃ u cell, s.use? e = some u ∧ u.direction = direction ∧
    s.planner.plan.cell? u.owner = some cell ∧ cell.frame = g ∧ cell.timeslot = t

/-- Where an event uses a cell, the lease says that it was used now. -/
theorem last_of_use {direction : Direction} {u : Planner.Use} {cell : Cell}
    (hs : s.schedule.WellFormed) (hu : s.use? e = some u) (hdirection : u.direction = direction)
    (hcell : s.planner.plan.cell? u.owner = some cell) {l : Link} {lease : Link.Lease}
    (hl : (s.step e).schedule.link? cell.frame cell.timeslot = some l)
    (hlease : l.lease = some lease) : lease.last direction = s.nowAfter e := by
  obtain ⟨pe, hpe, huse⟩ := Option.bind_eq_some_iff.1 hu
  obtain ⟨now, hnow, hperform⟩ := Planner.perform_edit_of_use? (s := s.schedule) huse
  have hschedule : (s.step e).schedule =
      ((s.planner.make now (some u)).perform (s.planner.sweep now s.schedule).1).1 := by
    rw [schedule_step, hpe, ← hperform]
    rfl
  rw [hschedule] at hl
  rw [← hdirection, ← eq_nowAfter_of_planned hpe now hnow]
  exact Planner.last_of_make (Planner.sweep_reworked hs).wellFormed hcell hl hlease

/-- After a join, every lease says that it was used now. -/
theorem last_of_join {now : SlotNumber} {direction : Direction} (hs : s.planner.Orderly s.schedule)
    {g t : UInt16} {l : Link} {lease : Link.Lease}
    (hl : (s.step (.join now)).schedule.link? g t = some l) (hlease : l.lease = some lease) :
    lease.last direction = now := by
  have hl : (s.planner.renewAll now s.schedule).link? g t = some l := hl
  have hwork := @Planner.renewAll_reworked s.planner now s.schedule hs.wellFormed
  by_cases hg : g ∈ s.planner.plan.unicastFrames
  · rw [hwork.link?_of hg] at hl
    obtain ⟨l₀, -, heq⟩ := Option.bind_eq_some_iff.1 hl
    cases heq
    obtain ⟨_, _, rfl⟩ := Option.map_eq_some_iff.1 hlease
    exact Link.Lease.last_fresh now direction
  · rw [hwork.link?_of_not hg] at hl
    exact absurd (hs.mem_of_leased hl (Option.isSome_of_eq_some hlease)) hg

/-- What an event refreshes is kept while no more slots than the lifetime pass. -/
theorem Aged.kept (hs : s.Aged) (hfits : s.LifetimeFits) (hpace : s.InPace e)
    {direction : Direction} {g t : UInt16} (hrefreshes : s.Refreshes direction g t e) {l : Link}
    (hl : (s.step e).schedule.link? g t = some l) (hlease : l.lease.isSome)
    (hhas : l.options.has direction = true) {es : List Event} (hpaced : (s.step e).Paced es)
    (hjoin : ∀ e ∈ es, e.isJoin = false)
    (hslots : (s.step e).slotsPassed es ≤ s.planner.lifetime.toNat) :
    ∃ l', ((s.step e).run es).schedule.link? g t = some l' ∧ l'.options.has direction = true := by
  have hnext := hs.step hfits hpace
  unfold LifetimeFits at hfits
  -- the direction was last used in the slot of the event
  have hlast : ∀ lease ∈ l.lease, lease.last direction = s.nowAfter e := by
    intro lease hlease
    rcases hrefreshes with hisJoin | ⟨u, cell, hu, hdirection, hcell, rfl, rfl⟩
    · cases e with
      | join now => exact last_of_join hs.orderly hl hlease
      | _ => cases hisJoin
    · exact last_of_use hs.orderly.wellFormed hu hdirection hcell hl hlease
  have hg : g ∈ (s.step e).planner.plan.unicastFrames := hnext.orderly.mem_of_leased hl hlease
  have hkept :
      (s.step e).planner.Kept (s.nowAfter e) direction ((s.step e).schedule.link? g t) := by
    refine ⟨l, hl, hhas, fun lease hlease => ?_⟩
    rw [hlast lease hlease, SlotNumber.elapsed_self]
    exact Nat.zero_le _
  have hwithin : (s.step e).planner.Within (s.nowAfter e) ((s.step e).planned es) := by
    rw [Planner.Within, planner_step]
    refine elapsed_planned ?_ hpaced hjoin ?_
    · rw [SlotNumber.modulus_eq]
      omega
    · rw [now_step, SlotNumber.elapsed_self, Nat.zero_add]
      exact hslots
  have hbound : (s.step e).planner.lifetime.toNat < 2 ^ 31 := by
    rw [planner_step]
    omega
  obtain ⟨l', hl', hhas', -⟩ :=
    Planner.kept_run (d := (s.step e).directory) hbound hg hnext.orderly.wellFormed hkept hwithin
  rw [← schedule_run] at hl'
  exact ⟨l', hl', hhas'⟩

/-- Of a station that came up, and after any events in pace: no direction of a leased link was last
used longer ago than the lifetime of leases and the sweep interval, less a slot; and a direction
that an event refreshes stays while no more slots than the lifetime pass and the station does not
join. -/
theorem lease_lifetime {settings : Settings} {driver : Gate.Driver} {s₀ : Station}
    (hup : bringUp settings driver = .ok s₀)
    (hfits : s₀.planner.lifetime.toNat + s₀.sweepInterval.toNat < 2 ^ 31)
    {es : List Event} (hpaced : s₀.Paced es) :
    (∀ g t l lease direction, (s₀.run es).schedule.link? g t = some l → l.lease = some lease →
        l.options.has direction = true →
        (s₀.run es).now.elapsed (lease.last direction) ≤
          s₀.planner.lifetime.toNat + s₀.sweepInterval.toNat - 1) ∧
      ∀ e direction g t l, (s₀.run es).InPace e → (s₀.run es).Refreshes direction g t e →
        ((s₀.run es).step e).schedule.link? g t = some l → l.lease.isSome →
        l.options.has direction = true →
        ∀ es', ((s₀.run es).step e).Paced es' → (∀ e ∈ es', e.isJoin = false) →
          ((s₀.run es).step e).slotsPassed es' ≤ s₀.planner.lifetime.toNat →
          ∃ l', (((s₀.run es).step e).run es').schedule.link? g t = some l' ∧
            l'.options.has direction = true := by
  have haged := (aged_bringUp hup).run hfits hpaced
  have hplanner : (s₀.run es).planner = s₀.planner := planner_run s₀ es
  have hinterval : (s₀.run es).sweepInterval = s₀.sweepInterval := by
    unfold sweepInterval
    rw [hplanner]
  refine ⟨fun g t l lease direction hl hlease hhas => ?_, fun e direction g t l hpace hrefreshes hl
    hlease hhas es' hpaced' hjoin hslots => ?_⟩
  · have hg := haged.orderly.mem_of_leased hl (Option.isSome_of_eq_some hlease)
    have hage := haged.young hg l hl lease hlease direction hhas
    have hphase := haged.elapsed_lt
    rw [hplanner] at hage
    rw [hinterval] at hphase
    omega
  · rw [← hplanner] at hslots
    refine haged.kept ?_ hpace hrefreshes hl hlease hhas hpaced' hjoin hslots
    unfold LifetimeFits
    rw [hplanner, hinterval]
    exact hfits

/-! ## A short lifetime

A node whose leases live eight slots, so that it sweeps every second slot.  It joins two slots
before the slot numbers wrap, sends to a neighbour and does so again in the slot after; eight slots
later it may still send. -/

/-- The settings of the node. -/
def briefSettings : Settings :=
  { Settings.standard with
    plan := { CellPlan.standard with leaseLifetime := .ofMicroseconds 120000 } }

/-- The node sends to a neighbour. -/
def greeting : Event := .transmitted (.ofLastByte 2) .delivered 1 false

/-- The node joins and sends, and the next slot begins. -/
def arrival : List Event :=
  [.join (.ofNat (2 ^ 40 - 2)), greeting, .tick (.ofNat (2 ^ 40 - 1))]

/-- The eight slots after that. -/
def eightSlots : List Event := (List.range 8).map fun k => .tick (.ofNat k)

/-- In the slot after the node sent, its lease is young, and eight slots after it sent again the
link still transmits. -/
theorem lease_lifetime_brief :
    ∃ s₀, bringUp briefSettings .quiet = .ok s₀ ∧
      s₀.planner.lifetime.toNat + s₀.sweepInterval.toNat = 10 ∧ s₀.Paced arrival ∧
      (∃ l lease, (s₀.run arrival).schedule.link? 2 1 = some l ∧ l.lease = some lease ∧
        l.options.has .tx = true ∧ (s₀.run arrival).now.elapsed (lease.last .tx) ≤ 9) ∧
      ∃ l, (((s₀.run arrival).step greeting).run eightSlots).schedule.link? 2 1 = some l ∧
        l.options.has .tx = true := by
  obtain ⟨s₀, hup, hsum, hpaced, hbefore, hrefreshes, hafter, hpaced', hslots⟩ :
      ∃ s₀, bringUp briefSettings .quiet = .ok s₀ ∧
        s₀.planner.lifetime.toNat + s₀.sweepInterval.toNat = 10 ∧ s₀.Paced arrival ∧
        ((s₀.run arrival).schedule.link? 2 1).any
          (fun l => l.lease.isSome && l.options.has .tx) = true ∧
        (s₀.run arrival).Refreshes .tx 2 1 greeting ∧
        (((s₀.run arrival).step greeting).schedule.link? 2 1).any
          (fun l => l.lease.isSome && l.options.has .tx) = true ∧
        ((s₀.run arrival).step greeting).Paced eightSlots ∧
        ((s₀.run arrival).step greeting).slotsPassed eightSlots = s₀.planner.lifetime.toNat :=
    ⟨_, rfl, rfl, by decide +kernel, by decide +kernel,
      .inr ⟨⟨.tx, 1, some (.unicast (.ofLastByte 2))⟩, ⟨2, 1, 2⟩, rfl, rfl, rfl, rfl, rfl⟩,
      by decide +kernel, by decide +kernel, by decide +kernel⟩
  obtain ⟨hage, hkept⟩ := lease_lifetime hup (by omega) hpaced
  refine ⟨s₀, hup, hsum, hpaced, ?_, ?_⟩
  · obtain ⟨l, hl, hlent⟩ := (Option.any_eq_true _ _).1 hbefore
    obtain ⟨hlease, htx⟩ := Bool.and_eq_true_iff.1 hlent
    obtain ⟨lease, hlease⟩ := Option.isSome_iff_exists.1 hlease
    have hbound := hage 2 1 l lease .tx hl hlease htx
    exact ⟨l, lease, hl, hlease, htx, by omega⟩
  · obtain ⟨l, hl, hlent⟩ := (Option.any_eq_true _ _).1 hafter
    obtain ⟨hlease, htx⟩ := Bool.and_eq_true_iff.1 hlent
    refine hkept greeting .tx 2 1 l trivial hrefreshes hl hlease htx eightSlots hpaced' ?_
      (Nat.le_of_eq hslots)
    decide

end Station

end SlottedMesh
