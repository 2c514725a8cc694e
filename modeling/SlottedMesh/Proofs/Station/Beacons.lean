import SlottedMesh.Proofs.Cells.Beacons
import SlottedMesh.Proofs.Station.Calls

/-!
# Whose beacons a station hears

A station notes its time source when it is told of one, whether or not its schedule could follow.

* `listening_run`: in runs of events, the beacon slotframe holds what it holds for the time source
  that is noted, however often there was no room.
* `beaconFrame_of_run` is the main statement about what there is: the link for the own beacons, and
  at most one other, on which the station hears its time source.
* `hearsAt_followTimeSource_iff` says when a station that is told of a time source hears it.  As the
  note decides, and not the schedule, room for the link is not enough: `deaf_of_followTimeSource` is
  a station that was told of its time source when there was no room, and does not hear it when it is
  told again and there is.
* `hearsAt_of_room`: it takes such a refusal.  In runs in which there is room whenever the station
  is told of a time source, it hears the one that is noted.
-/

namespace SlottedMesh.Station

open Planner CellPlan

variable {settings : Settings} {driver : Gate.Driver} {s s₀ : Station} {t index own : UInt16}

/-- The index of the time source that is noted. -/
def sourceIndex? (s : Station) : Option UInt16 := s.timeSource.bind s.directory.indexOf?

/-! ## Runs of events -/

/-- An event that is not a change of the time source leaves the note. -/
theorem timeSource_step {e : Event} (he : ∀ a, e ≠ .followTimeSource a) :
    (s.step e).timeSource = s.timeSource := by
  cases e with
  | tick now =>
    show (s.tick now).timeSource = s.timeSource
    rw [tick_eq]
    split <;> rfl
  | followTimeSource a => exact absurd rfl (he a)
  | _ => rfl

/-- Only an event that changes the time source changes its index. -/
theorem sourceIndex?_step {e : Event} (he : ∀ a, e ≠ .followTimeSource a) :
    (s.step e).sourceIndex? = s.sourceIndex? := by
  rw [sourceIndex?, timeSource_step he, directory_step, sourceIndex?]

/-- What the planner does in it has a slot. -/
theorem isSome_slot?_of_planned? {e : Event} (he : ∀ a, e ≠ .followTimeSource a) :
    ∀ pe ∈ s.planned? e, pe.slot?.isSome := by
  intro pe hpe
  cases e with
  | tick now =>
    rw [planned?] at hpe
    split at hpe
    · cases hpe
    · cases hpe
      rfl
  | followTimeSource a => exact absurd rfl (he a)
  | becomeRoot => cases hpe
  | heard a rank metric => cases hpe
  | _ =>
    cases hpe
    rfl

/-- An event keeps the beacon slotframe as the source that is noted wants it. -/
theorem listening_step (h : s.planner.Listening s.sourceIndex? s.schedule)
    (hown : s.planner.plan.beaconSlot? s.planner.index = some own) (e : Event) :
    s.planner.Listening (s.step e).sourceIndex? (s.step e).schedule := by
  by_cases he : ∃ a, e = .followTimeSource a
  · obtain ⟨a, rfl⟩ := he
    exact Listening.followTimeSource h hown a
  · have he := not_exists.1 he
    rw [sourceIndex?_step he, schedule_step]
    cases hplanned : s.planned? e with
    | none => exact h
    | some pe => exact h.perform (isSome_slot?_of_planned? he pe hplanned)

/-- A station that came up has a beacon period, so that every index has its timeslot. -/
theorem CameUp.beaconSlot?_eq (h : CameUp settings driver s₀) (i : UInt16) :
    s₀.planner.plan.beaconSlot? i = some (i % settings.plan.beaconPeriod) := by
  have hlength := (listening_layOut h.layOut_eq).length?_eq
  rw [CellPlan.beaconSlot?_eq (Schedule.ne_zero_of_length?_eq_some hlength), h.plan_eq]

/-- After any events, the beacon slotframe holds what it holds for the time source that is noted. -/
theorem listening_run (hup : bringUp settings driver = .ok s₀) (es : List Event) :
    s₀.planner.Listening (s₀.run es).sourceIndex? (s₀.run es).schedule := by
  have h := cameUp_of_bringUp hup
  induction es using List.reverseRecOn with
  | nil =>
    show s₀.planner.Listening s₀.sourceIndex? s₀.schedule
    rw [sourceIndex?, h.timeSource_eq]
    exact listening_layOut h.layOut_eq
  | append_singleton es e ih =>
    have hown := h.beaconSlot?_eq s₀.planner.index
    rw [← planner_run s₀ es] at ih hown ⊢
    rw [run_append_singleton]
    exact listening_step ih hown e

/-- **One other at most.**  After any events of a station that came up, its beacon slotframe holds
the link for its own beacons, at its index modulo the beacon period, and at most one further link.
If there is one, the time source that is noted has an index, the link is at this index modulo the
period, which is not the own timeslot, and there the station only listens, and only for beacons. -/
theorem beaconFrame_of_run (hup : bringUp settings driver = .ok s₀) (es : List Event) :
    ∃ index own, settings.directory.indexOfId? settings.nodeId = some index ∧
      own = index % settings.plan.beaconPeriod ∧
      (s₀.run es).schedule.attributes? beaconFrame own = some announcing ∧
      ∃ further : Option UInt16,
        (∀ t, t ≠ own → (s₀.run es).schedule.attributes? beaconFrame t =
          if further = some t then some hearing else none) ∧
        ∀ t ∈ further, t ≠ own ∧ ∃ a i, (s₀.run es).timeSource = some a ∧
          settings.directory.indexOf? a = some i ∧ t = i % settings.plan.beaconPeriod := by
  have h := cameUp_of_bringUp hup
  have hrun := listening_run hup es
  have hown := h.beaconSlot?_eq s₀.planner.index
  obtain ⟨further, hothers, hsource⟩ := hrun.exists_further hown
  refine ⟨s₀.planner.index, _, h.indexOfId?_eq, rfl, hrun.announces hown, further, hothers,
    fun t ht => ?_⟩
  obtain ⟨haway, hslot⟩ := hsource t ht
  obtain ⟨i, hi, hslot⟩ := Option.bind_eq_some_iff.1 hslot
  obtain ⟨a, ha, hi⟩ := Option.bind_eq_some_iff.1 hi
  rw [h.beaconSlot?_eq] at hslot
  rw [directory, settings_run, h.settings_eq] at hi
  exact ⟨haway, a, i, ha, hi, (Option.some.inj hslot).symm⟩

/-! A node is told of a time source that sends in its own timeslot, for which there is nothing to
do, and then of one that sends in the next. -/

/-- Settings with a beacon period of four timeslots; the node has the second of them. -/
def fourSlots : Settings :=
  { Settings.standard with plan := { CellPlan.standard with beaconPeriod := 4 } }

/-- What the node is told. -/
def twoSources : List Event :=
  [.followTimeSource (some (.ofLastByte 5)), .followTimeSource (some (.ofLastByte 6))]

/-- After the second source only its timeslot is listened in. -/
theorem beaconFrame_of_run_fourSlots :
    ∃ s₀, bringUp fourSlots .quiet = .ok s₀ ∧
      (s₀.run twoSources).schedule.attributes? beaconFrame 2 = some hearing ∧
      ∀ t, t ≠ 1 → t ≠ 2 →
        (s₀.run twoSources).schedule.attributes? beaconFrame t = none := by
  obtain ⟨s₀, hup, hhears⟩ : ∃ s₀, bringUp fourSlots .quiet = .ok s₀ ∧
      (s₀.run twoSources).schedule.attributes? beaconFrame 2 = some hearing :=
    ⟨_, rfl, by decide +kernel⟩
  obtain ⟨index, own, hindex, rfl, -, further, hothers, -⟩ := beaconFrame_of_run hup twoSources
  have hindex : index = 1 := (Option.some.inj hindex).symm
  subst hindex
  have hfurther : further = some 2 := by
    by_contra hne
    have htwo := hothers 2 (by decide)
    rw [hhears, if_neg hne] at htwo
    cases htwo
  refine ⟨s₀, hup, hhears, fun t hown ht => ?_⟩
  rw [hothers t hown, hfurther, if_neg fun heq => ht (Option.some.inj heq).symm]

/-! ## Being told of a time source -/

/-- What a station that is told of a time source hears, if there is room for a link. -/
theorem hearsAt_of_alike (h : CameUp settings driver s₀) (hs : Alike s₀ s) {a : Address}
    {i : UInt16} (hi : settings.directory.indexOf? a = some i)
    (hindex : settings.directory.indexOfId? settings.nodeId = some index)
    (haway : i % settings.plan.beaconPeriod ≠ index % settings.plan.beaconPeriod)
    (hroom : s.schedule.linkCount < settings.schedule.maxLinks) :
    HearsAt (s.followTimeSource (some a)).schedule (i % settings.plan.beaconPeriod) ↔
      s.sourceIndex? ≠ some i ∨ HearsAt s.schedule (i % settings.plan.beaconPeriod) := by
  rw [h.indexOfId?_eq] at hindex
  cases hindex
  have hlength : s.schedule.length? beaconFrame = some s.planner.plan.beaconPeriod := by
    rw [hs.sameFrames.length?_eq, hs.planner_eq]
    exact (listening_layOut h.layOut_eq).length?_eq
  have hmax : s.schedule.maxLinks = settings.schedule.maxLinks := by
    rw [hs.sameFrames.maxLinks_eq]
    exact (laid_layOut h.layOut_eq).maxLinks_eq
  have hslot (j : UInt16) :
      s.planner.plan.beaconSlot? j = some (j % settings.plan.beaconPeriod) := by
    rw [hs.planner_eq, h.beaconSlot?_eq]
  have hnew : (some a).bind s.directory.indexOf? = some i := by
    rw [directory, hs.settings_eq, h.settings_eq, Option.bind_some, hi]
  rw [← hmax] at hroom
  rw [← hs.planner_eq] at haway
  exact hearsAt_followTimeSource hs.wellFormed hlength (hslot _) hnew (hslot i) haway hroom

/-- **Room is not enough.**  A station that came up, after any calls, is told of a time source whose
beacons are not in the own timeslot, and there is room for a link.  It then hears the source exactly
if the one that was noted before has another index, or if it heard it already. -/
theorem hearsAt_followTimeSource_iff (hup : bringUp settings driver = .ok s₀) (cs : List Call)
    {a : Address} {i : UInt16} (hi : settings.directory.indexOf? a = some i)
    (hindex : settings.directory.indexOfId? settings.nodeId = some index)
    (haway : i % settings.plan.beaconPeriod ≠ index % settings.plan.beaconPeriod)
    (hroom : (s₀.calls cs).schedule.linkCount < settings.schedule.maxLinks) :
    HearsAt ((s₀.calls cs).followTimeSource (some a)).schedule (i % settings.plan.beaconPeriod) ↔
      (s₀.calls cs).sourceIndex? ≠ some i ∨
        HearsAt (s₀.calls cs).schedule (i % settings.plan.beaconPeriod) := by
  have h := cameUp_of_bringUp hup
  exact hearsAt_of_alike h (alike_calls h.wellFormed cs) hi hindex haway hroom

/-! A node with room for three links sends to a neighbour, which takes the last of them, and is told
of a time source.  When the lease has run out, it is told of it again, and then of another one. -/

/-- The settings of the node. -/
def threeLinks : Settings :=
  { Settings.standard with schedule := { Settings.standardSchedule with maxLinks := 3 } }

/-- What happens before it is told again. -/
def refusedSource : List Event :=
  [.transmitted (.ofLastByte 9) .delivered 1 false, .followTimeSource (some (.ofLastByte 5)),
    .tick (.ofNat 10000)]

/-- The source that was refused is not heard although there is room again, and another one is. -/
theorem hearsAt_followTimeSource_iff_refused :
    ∃ s₀, bringUp threeLinks .quiet = .ok s₀ ∧
      (s₀.calls (refusedSource.map .event)).schedule.linkCount < threeLinks.schedule.maxLinks ∧
      ¬HearsAt ((s₀.calls (refusedSource.map .event)).followTimeSource
        (some (.ofLastByte 5))).schedule 5 ∧
      HearsAt ((s₀.calls (refusedSource.map .event)).followTimeSource
        (some (.ofLastByte 6))).schedule 6 := by
  obtain ⟨s₀, hup, hroom, hsource, hvacant⟩ :
      ∃ s₀, bringUp threeLinks .quiet = .ok s₀ ∧
        (s₀.calls (refusedSource.map .event)).schedule.linkCount < threeLinks.schedule.maxLinks ∧
        (s₀.calls (refusedSource.map .event)).sourceIndex? = some 5 ∧
        (s₀.calls (refusedSource.map .event)).schedule.link? beaconFrame 5 = none :=
    ⟨_, rfl, by decide +kernel, by decide +kernel, by decide +kernel⟩
  have hindex : threeLinks.directory.indexOfId? threeLinks.nodeId = some 1 := rfl
  refine ⟨s₀, hup, hroom, ?_, ?_⟩
  · have hiff := hearsAt_followTimeSource_iff hup _ (a := .ofLastByte 5) (i := 5) rfl hindex
      (by decide) hroom
    intro hhears
    rcases hiff.1 hhears with hne | ⟨l, hl, -⟩
    · exact hne hsource
    · exact nomatch hvacant.symm.trans hl
  · have hiff := hearsAt_followTimeSource_iff hup _ (a := .ofLastByte 6) (i := 6) rfl hindex
      (by decide) hroom
    apply hiff.2
    left
    rw [hsource]
    decide

/-- It is not so that a station hears a time source that it is told of when there is room for the
link: not if it was told of it before when there was none. -/
theorem deaf_of_followTimeSource :
    ¬∀ (settings : Settings) (driver : Gate.Driver) (s₀ : Station) (es : List Event) (a : Address)
      (i index : UInt16), bringUp settings driver = .ok s₀ →
      settings.directory.indexOf? a = some i →
      settings.directory.indexOfId? settings.nodeId = some index →
      i % settings.plan.beaconPeriod ≠ index % settings.plan.beaconPeriod →
      (s₀.run es).schedule.linkCount < settings.schedule.maxLinks →
      HearsAt ((s₀.run es).followTimeSource (some a)).schedule (i % settings.plan.beaconPeriod) := by
  intro h
  obtain ⟨s₀, hup, hroom, hvacant⟩ :
      ∃ s₀, bringUp threeLinks .quiet = .ok s₀ ∧
        (s₀.run refusedSource).schedule.linkCount < threeLinks.schedule.maxLinks ∧
        ((s₀.run refusedSource).followTimeSource (some (.ofLastByte 5))).schedule.link?
          beaconFrame 5 = none :=
    ⟨_, rfl, by decide +kernel, by decide +kernel⟩
  obtain ⟨l, hl, -⟩ := h _ _ _ refusedSource (.ofLastByte 5) 5 1 hup rfl rfl (by decide) hroom
  cases hvacant.symm.trans hl

/-! ## Runs with room -/

/-- Events that are not a change of the time source leave what the station hears. -/
theorem hearsAt_step (hs : s.schedule.WellFormed) {e : Event}
    (he : ∀ a, e ≠ .followTimeSource a) (t : UInt16) :
    HearsAt (s.step e).schedule t ↔ HearsAt s.schedule t := by
  have hlink : (s.step e).schedule.link? beaconFrame t = s.schedule.link? beaconFrame t := by
    rw [schedule_step]
    cases hplanned : s.planned? e with
    | none => rfl
    | some pe =>
      refine link?_perform_of_not_follow hs (isSome_slot?_of_planned? he pe hplanned)
        (fun hg => ?_) t
      exact ne_beaconFrame hg rfl
  rw [HearsAt, hlink, HearsAt]

/-- If there was room for a link whenever a station was told of a time source, it hears the one that
is noted, unless it has the station's own timeslot. -/
theorem hearsAt_of_room (hup : bringUp settings driver = .ok s₀) {es : List Event}
    (hroom : ∀ fore a, fore ++ [.followTimeSource a] <+: es →
      (s₀.run fore).schedule.linkCount < settings.schedule.maxLinks)
    (hindex : settings.directory.indexOfId? settings.nodeId = some index) {i : UInt16}
    (hi : (s₀.run es).sourceIndex? = some i)
    (haway : i % settings.plan.beaconPeriod ≠ index % settings.plan.beaconPeriod) :
    HearsAt (s₀.run es).schedule (i % settings.plan.beaconPeriod) := by
  have h := cameUp_of_bringUp hup
  induction es using List.reverseRecOn generalizing i with
  | nil =>
    have hi : s₀.sourceIndex? = some i := hi
    rw [sourceIndex?, h.timeSource_eq] at hi
    cases hi
  | append_singleton es e ih =>
    have hbefore {i : UInt16} := @ih (fun fore a hfore =>
      hroom fore a (hfore.trans (List.prefix_append es [e]))) i
    have hrun := listening_run hup es
    rw [run_append_singleton] at hi ⊢
    by_cases he : ∃ a, e = .followTimeSource a
    · obtain ⟨a?, rfl⟩ := he
      have hs : Alike s₀ (s₀.run es) := alike_run h.wellFormed es
      obtain ⟨a, ha, hnew⟩ := Option.bind_eq_some_iff.1 hi
      have ha : a? = some a := ha
      subst ha
      rw [directory_step, directory, hs.settings_eq, h.settings_eq] at hnew
      refine (hearsAt_of_alike h hs hnew hindex haway (hroom es _ (List.prefix_refl _))).2 ?_
      by_cases hsource : (s₀.run es).sourceIndex? = some i
      · exact .inr (hbefore hsource haway)
      · exact .inl hsource
    · have he := not_exists.1 he
      rw [sourceIndex?_step he] at hi
      exact (hearsAt_step hrun.wellFormed he _).2 (hbefore hi haway)

end SlottedMesh.Station
