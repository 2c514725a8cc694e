import SlottedMesh.Proofs.Cells.Permanent

/-!
# The beacon slotframe

Besides the link for the own beacons, the beacon slotframe has at most the link on which the node
listens for those of its time source.  A change of the time source first takes out the link for the
old one and then puts one for the new; two sources may fall into one timeslot, or into the own one,
and there may be no room for the second step after the first was done.

* `perform_followTimeSource` says that a change is `Muted` and then `hearBeacons`, of which
  `perform_hearBeacons` says when it is refused.
* `Listening` is what holds of the beacon slotframe of a node whose time source has some index, and
  `Listening.followTimeSource` says that a change leaves what holds for the new one, however it
  ends.
* `link?_perform_of_not_follow`: no other event acts outside the unicast slotframes.
* `hearsAt_followTimeSource`: with room for a link, the node listens where the new source sends,
  unless the old one has the same index.
-/

namespace SlottedMesh

/-! ## Timeslots of beacons -/

namespace CellPlan

variable {plan : CellPlan}

/-- With a beacon period, every index has its timeslot. -/
theorem beaconSlot?_eq (h : plan.beaconPeriod ≠ 0) (index : UInt16) :
    plan.beaconSlot? index = some (index % plan.beaconPeriod) := if_neg h

/-- Timeslots of beacons are in the beacon slotframe. -/
theorem lt_of_beaconSlot? {index timeslot : UInt16} (h : plan.beaconSlot? index = some timeslot) :
    timeslot < plan.beaconPeriod := by
  unfold beaconSlot? wrap? at h
  split at h
  · cases h
  · rename_i hperiod
    cases h
    exact UInt16.mod_lt _ (UInt16.pos_iff_ne_zero.2 hperiod)

end CellPlan

/-! ## Links that an edit puts -/

namespace Edit

variable {cell : Cell} {options : Link.Options} {kind : Link.Kind} {peer : Link.Peer}
  {s s' : Schedule}

/-- A link that the schedule takes lets the edit go on. -/
theorem perform_putLink_of_eq_ok {l : Link}
    (h : s.putLink cell.frame cell.timeslot ⟨options, kind, peer, cell.channelOffset⟩ =
      .ok (s', l)) : (putLink cell options kind peer).perform s = (s', .ok ()) := by
  rw [perform_putLink, h]

/-- A link that it refuses stops the edit with the schedule as it was. -/
theorem perform_putLink_of_eq_error {e : ScheduleError}
    (h : s.putLink cell.frame cell.timeslot ⟨options, kind, peer, cell.channelOffset⟩ =
      .error e) : (putLink cell options kind peer).perform s = (s, .error (.refused e)) := by
  rw [perform_putLink, h]

end Edit

namespace Planner

open Schedule

variable {p : Planner} {d : Directory} {s s' s₁ : Schedule} {own t index : UInt16}
  {index? old? new? : Option UInt16} {old new : Option Address}

/-! ## A change of the time source -/

/-- The schedule after the node stopped to listen for the beacons of an index. -/
structure Muted (p : Planner) (own : UInt16) (index? : Option UInt16) (s s' : Schedule) : Prop where
  /-- What is kept twice agrees. -/
  wellFormed : s'.WellFormed
  /-- The slotframes are the same. -/
  sameFrames : SameFrames s s'
  /-- There are no more links than there were. -/
  linkCount_le : s'.linkCount ≤ s.linkCount
  /-- The link at the timeslot of the index is gone, unless the timeslot is the own one. -/
  link?_eq (t : UInt16) : s'.link? CellPlan.beaconFrame t =
    if index?.bind p.plan.beaconSlot? = some t ∧ t ≠ own then none
    else s.link? CellPlan.beaconFrame t

/-- Where the node was not to listen, nothing is to be done to stop it. -/
theorem muted_self (hs : s.WellFormed) (h : index?.bind p.plan.beaconSlot? ∈ [none, some own]) :
    p.Muted own index? s s := by
  refine ⟨hs, .refl s, Nat.le_refl _, fun t => ?_⟩
  rw [if_neg]
  rintro ⟨hslot, haway⟩
  rw [hslot] at h
  simp [haway] at h

/-- In a schedule with the beacon slotframe, the node can stop to listen. -/
theorem perform_muteBeacons (hs : s.WellFormed)
    (hlength : s.length? CellPlan.beaconFrame = some p.plan.beaconPeriod) (own : UInt16)
    (index? : Option UInt16) :
    ∃ s', (p.muteBeacons own index?).perform s = (s', .ok ()) ∧ p.Muted own index? s s' := by
  cases index? with
  | none => exact ⟨s, rfl, muted_self hs (by simp)⟩
  | some index =>
    have hslot := CellPlan.beaconSlot?_eq (ne_zero_of_length?_eq_some hlength) index
    unfold muteBeacons
    simp only [hslot, Edit.place, pure_bind, awayFrom]
    by_cases hown : index % p.plan.beaconPeriod = own
    · rw [if_pos hown]
      exact ⟨s, rfl, muted_self hs (by simp [hslot, hown])⟩
    · rw [if_neg hown, Edit.perform_removeLinkAt]
      obtain ⟨s', removed, hremove, hcount⟩ :=
        removeLinkAt_eq_ok hlength (index % p.plan.beaconPeriod)
      have hset := setAt_removeLinkAt hs hremove
      rw [hremove]
      refine ⟨s', rfl, hset.wellFormed, hset.sameFrames, hcount, fun t => ?_⟩
      rw [hset.link?_eq, Option.bind_some, hslot]
      by_cases ht : t = index % p.plan.beaconPeriod
      · rw [if_pos ⟨rfl, ht⟩, if_pos ⟨congrArg some ht.symm, ht ▸ hown⟩]
      · rw [if_neg fun hplace => ht hplace.2,
          if_neg fun hplace => ht (Option.some.inj hplace.1).symm]

/-- In a schedule with the beacon slotframe, the node can listen at a timeslot that is not the own
one, unless there is no link there yet and no room for one. -/
theorem perform_hearBeacons (hs : s.WellFormed)
    (hlength : s.length? CellPlan.beaconFrame = some p.plan.beaconPeriod)
    (hslot : p.plan.beaconSlot? index = some t) (haway : t ≠ own) :
    (∃ s', (p.hearBeacons own (some index)).perform s = (s', .ok ()) ∧
        SetAt CellPlan.beaconFrame t (some (placed CellPlan.beaconFrame t s.nextHandle hearing
          (s.link? CellPlan.beaconFrame t))) s s') ∨
      (p.hearBeacons own (some index)).perform s = (s, .error (.refused (.full .link s.maxLinks))) ∧
        s.maxLinks ≤ s.linkCount := by
  have hperform : (p.hearBeacons own (some index)).perform s =
      (Edit.putLink ⟨CellPlan.beaconFrame, t, CellPlan.beaconFrame⟩ .rxOnly .advertisingOnly
        .unbound).perform s := by
    unfold hearBeacons
    simp only [hslot, Edit.place, pure_bind, awayFrom, if_neg haway]
  rw [hperform]
  rcases putLink_eq_ok_or_full hlength (CellPlan.lt_of_beaconSlot? hslot) hearing with
    ⟨s', l, hput⟩ | ⟨hfull, -, hcount⟩
  · obtain ⟨hl, hset⟩ := setAt_putLink hs hput
    rw [hl] at hset
    exact .inl ⟨s', Edit.perform_putLink_of_eq_ok hput, hset⟩
  · exact .inr ⟨Edit.perform_putLink_of_eq_error hfull, hcount⟩

/-- A change to a source of another index is to stop listening for the old one and then to listen
for the new one. -/
theorem perform_followTimeSource (hs : s.WellFormed)
    (hlength : s.length? CellPlan.beaconFrame = some p.plan.beaconPeriod)
    (hown : p.plan.beaconSlot? p.index = some own)
    (hne : old.bind d.indexOf? ≠ new.bind d.indexOf?) :
    ∃ s₁, p.Muted own (old.bind d.indexOf?) s s₁ ∧
      (p.followTimeSource d old new).perform s =
        (p.hearBeacons own (new.bind d.indexOf?)).perform s₁ := by
  obtain ⟨s₁, hmute, hmuted⟩ := perform_muteBeacons hs hlength own (old.bind d.indexOf?)
  refine ⟨s₁, hmuted, ?_⟩
  unfold followTimeSource
  simp only [if_neg hne, hown, Edit.place, pure_bind]
  rw [Change.perform_bind, hmute]

/-! ## What the beacon slotframe holds -/

/-- What holds of the beacon slotframe of a node whose time source has this index, or none. -/
structure Listening (p : Planner) (index? : Option UInt16) (s : Schedule) : Prop where
  /-- What is kept twice agrees. -/
  wellFormed : s.WellFormed
  /-- There is the slotframe, with the length of the plan. -/
  length?_eq : s.length? CellPlan.beaconFrame = some p.plan.beaconPeriod
  /-- The node sends its beacons in its own timeslot. -/
  announces {own : UInt16} : p.plan.beaconSlot? p.index = some own →
    s.attributes? CellPlan.beaconFrame own = some announcing
  /-- In other timeslots it only listens, and only where its time source sends. -/
  hears {t : UInt16} {a : Link.Attributes} : s.attributes? CellPlan.beaconFrame t = some a →
    p.plan.beaconSlot? p.index ≠ some t → a = hearing ∧ index?.bind p.plan.beaconSlot? = some t

/-- After a layout that succeeds, the node listens to nobody. -/
theorem listening_layOut {maxFrames maxLinks : Nat} {x : Unit}
    (h : p.layOut.perform (.empty maxFrames maxLinks) = (s, .ok x)) : p.Listening none s := by
  have hattributes := attributes?_layOut_beaconFrame h
  obtain ⟨hpristine, hlength, -⟩ := pristine_layOut h
  refine ⟨hpristine.wellFormed, hlength _, fun {own} hown => ?_, fun {t a} ha haway => ?_⟩
  · rw [hattributes, if_pos hown]
  · rw [hattributes, if_neg haway] at ha
    cases ha

/-- What is outside the beacon slotframe does not matter. -/
theorem Listening.congr (h : p.Listening index? s) (hs' : s'.WellFormed)
    (hframes : SameFrames s s')
    (hlink : ∀ t, s'.link? CellPlan.beaconFrame t = s.link? CellPlan.beaconFrame t) :
    p.Listening index? s' := by
  have hattributes (t : UInt16) :
      s'.attributes? CellPlan.beaconFrame t = s.attributes? CellPlan.beaconFrame t := by
    rw [attributes?, hlink, attributes?]
  refine ⟨hs', (hframes.length?_eq _).trans h.length?_eq, fun {own} hown => ?_,
    fun {t a} ha haway => ?_⟩
  · rw [hattributes]
    exact h.announces hown
  · rw [hattributes] at ha
    exact h.hears ha haway

/-- A node that listens to nobody meets what holds for any time source. -/
theorem Listening.of_none (h : p.Listening none s) : p.Listening index? s := by
  refine ⟨h.wellFormed, h.length?_eq, h.announces, fun ha haway => ?_⟩
  cases (h.hears ha haway).2

/-- Once it stopped to listen to its time source, a node listens to nobody. -/
theorem Listening.mute (h : p.Listening index? s) (hown : p.plan.beaconSlot? p.index = some own)
    (hmuted : p.Muted own index? s s₁) : p.Listening none s₁ := by
  refine ⟨hmuted.wellFormed, (hmuted.sameFrames.length?_eq _).trans h.length?_eq,
    fun {own'} hown' => ?_, fun {t a} ha haway => ?_⟩
  · rw [hown] at hown'
    cases hown'
    rw [attributes?, hmuted.link?_eq, if_neg fun hplace => hplace.2 rfl]
    exact h.announces hown
  · rw [attributes?, hmuted.link?_eq] at ha
    split at ha
    · cases ha
    · -- a link that was left would have to be that of the old source
      rename_i hleft
      obtain ⟨-, hslot⟩ := h.hears ha haway
      refine absurd ⟨hslot, ?_⟩ hleft
      rintro rfl
      exact haway hown

/-- When it starts to listen to another one, or has no room to, that is its only one. -/
theorem Listening.hear (h : p.Listening none s) (hown : p.plan.beaconSlot? p.index = some own)
    (new? : Option UInt16) : p.Listening new? ((p.hearBeacons own new?).perform s).1 := by
  cases new? with
  | none => exact h
  | some index =>
    cases hslot : p.plan.beaconSlot? index with
    | none =>
      unfold hearBeacons
      simp only [hslot]
      exact h.of_none
    | some t =>
      by_cases haway : t = own
      · unfold hearBeacons
        simp only [hslot, Edit.place, pure_bind, awayFrom, if_pos haway]
        exact h.of_none
      · rcases perform_hearBeacons h.wellFormed h.length?_eq hslot haway with
          ⟨s', hhear, hset⟩ | ⟨hfull, -⟩
        · rw [hhear]
          have hattributes (u : UInt16) : s'.attributes? CellPlan.beaconFrame u =
              if u = t then some hearing else s.attributes? CellPlan.beaconFrame u := by
            rw [attributes?, hset.link?_eq]
            by_cases hu : u = t
            · rw [if_pos ⟨rfl, hu⟩, if_pos hu, Option.map_some, toAttributes_placed]
            · rw [if_neg fun hplace => hu hplace.2, if_neg hu, attributes?]
          refine ⟨hset.wellFormed, (hset.sameFrames.length?_eq _).trans h.length?_eq,
            fun {own'} hown' => ?_, fun {u a} ha hu => ?_⟩
          · rw [hown] at hown'
            cases hown'
            rw [hattributes, if_neg (Ne.symm haway)]
            exact h.announces hown
          · rw [hattributes] at ha
            split at ha
            · rename_i heq
              cases ha
              exact ⟨rfl, by rw [heq, Option.bind_some, hslot]⟩
            · cases (h.hears ha hu).2
        · rw [hfull]
          exact h.of_none

/-- After a change of the time source, the node listens to the new one at most, however the change
ended. -/
theorem Listening.followTimeSource (h : p.Listening (old.bind d.indexOf?) s)
    (hown : p.plan.beaconSlot? p.index = some own) (new : Option Address) :
    p.Listening (new.bind d.indexOf?) ((p.followTimeSource d old new).perform s).1 := by
  by_cases hsame : old.bind d.indexOf? = new.bind d.indexOf?
  · unfold Planner.followTimeSource
    rw [if_pos hsame, ← hsame]
    exact h
  · obtain ⟨s₁, hmuted, hperform⟩ := perform_followTimeSource h.wellFormed h.length?_eq hown hsame
    rw [hperform]
    exact (h.mute hown hmuted).hear hown _

/-- Besides the link in the own timeslot there is one at most, where the time source sends. -/
theorem Listening.exists_further (h : p.Listening index? s)
    (hown : p.plan.beaconSlot? p.index = some own) :
    ∃ further : Option UInt16,
      (∀ t, t ≠ own → s.attributes? CellPlan.beaconFrame t =
        if further = some t then some hearing else none) ∧
      ∀ t ∈ further, t ≠ own ∧ index?.bind p.plan.beaconSlot? = some t := by
  have hears {t : UInt16} {a : Link.Attributes} (ht : t ≠ own)
      (ha : s.attributes? CellPlan.beaconFrame t = some a) :
      a = hearing ∧ index?.bind p.plan.beaconSlot? = some t :=
    h.hears ha (by rw [hown]; exact fun heq => ht (Option.some.inj heq).symm)
  by_cases hfurther : ∃ t a, t ≠ own ∧ s.attributes? CellPlan.beaconFrame t = some a
  · obtain ⟨t, a, ht, ha⟩ := hfurther
    obtain ⟨rfl, hsource⟩ := hears ht ha
    refine ⟨some t, fun u hu => ?_, ?_⟩
    · by_cases htu : t = u
      · rw [if_pos (congrArg some htu), ← htu, ha]
      · rw [if_neg fun heq => htu (Option.some.inj heq)]
        by_contra hsome
        obtain ⟨b, hb⟩ := Option.ne_none_iff_exists'.1 hsome
        exact htu (Option.some.inj (hsource.symm.trans (hears hu hb).2))
    · rintro _ ⟨⟩
      exact ⟨ht, hsource⟩
  · refine ⟨none, fun t ht => ?_, nofun⟩
    rw [if_neg nofun]
    by_contra hsome
    obtain ⟨a, ha⟩ := Option.ne_none_iff_exists'.1 hsome
    exact hfurther ⟨t, a, ht, ha⟩

/-! ## Other events -/

/-- Events other than a change of the time source act in the unicast slotframes only. -/
theorem link?_perform_of_not_follow (hs : s.WellFormed) {e : Event} (he : e.slot?.isSome)
    {g : UInt16} (hg : g ∉ p.plan.unicastFrames) (t : UInt16) :
    ((e.edit p d).perform s).1.link? g t = s.link? g t := by
  have hsweep (now : SlotNumber) : (p.sweep now s).1.link? g t = s.link? g t :=
    (sweep_reworked hs).link?_of_not hg
  have hmake (now : SlotNumber) (u? : Option Use) :
      ((p.make now u?).perform (p.sweep now s).1).1.link? g t = s.link? g t := by
    rw [← hsweep now]
    cases u? with
    | none => rfl
    | some u =>
      have hwellFormed : (p.sweep now s).1.WellFormed := (sweep_reworked hs).wellFormed
      rcases perform_make u now hwellFormed with ⟨e, hrefused⟩ | ⟨cell, s', hcell, hdone, hset⟩
      · rw [hrefused]
      · rw [hdone, hset.link?_eq, if_neg]
        rintro ⟨rfl, -⟩
        exact hg (CellPlan.cell?_eq_some hcell).1
  cases e with
  | received packet now =>
    show ((p.received d packet now).perform s).1.link? g t = _
    by_cases hcontrol : packet.isControl = true
    · unfold received
      rw [if_pos hcontrol]
      rfl
    · rw [perform_received (Bool.eq_false_iff.2 hcontrol)]
      exact hmake now _
  | sent packet outcome now =>
    show ((p.sent d packet outcome now).perform s).1.link? g t = _
    by_cases hcontrol : packet.isControl = true
    · unfold sent
      rw [if_pos hcontrol]
      rfl
    · rw [perform_sent (Bool.eq_false_iff.2 hcontrol)]
      exact hmake now _
  | expire now => exact hsweep now
  | join now => exact (renewAll_reworked hs).link?_of_not hg
  | follow old new => cases he

/-- They leave the beacon slotframe as it was. -/
theorem Listening.perform (h : p.Listening index? s) {e : Event} (he : e.slot?.isSome) :
    p.Listening index? ((e.edit p d).perform s).1 := by
  have htouches := touching_edit (p := p) (d := d) e s h.wellFormed
  refine h.congr htouches.wellFormed htouches.sameFrames fun t => ?_
  refine link?_perform_of_not_follow h.wellFormed he (fun hg => ?_) t
  exact CellPlan.ne_beaconFrame hg rfl

/-! ## Room for a link -/

/-- The node listens in this timeslot of the beacon slotframe. -/
def HearsAt (s : Schedule) (t : UInt16) : Prop :=
  ∃ l, s.link? CellPlan.beaconFrame t = some l ∧ l.options.rx = true

/-- With room for a link, the node listens where a new source sends, unless it sends in the own
timeslot.  A source of the index that the old one has changes nothing. -/
theorem hearsAt_followTimeSource (hs : s.WellFormed)
    (hlength : s.length? CellPlan.beaconFrame = some p.plan.beaconPeriod)
    (hown : p.plan.beaconSlot? p.index = some own) (hnew : new.bind d.indexOf? = some index)
    (hslot : p.plan.beaconSlot? index = some t) (haway : t ≠ own)
    (hroom : s.linkCount < s.maxLinks) :
    HearsAt ((p.followTimeSource d old new).perform s).1 t ↔
      old.bind d.indexOf? ≠ some index ∨ HearsAt s t := by
  by_cases hsame : old.bind d.indexOf? = new.bind d.indexOf?
  · unfold followTimeSource
    rw [if_pos hsame, hsame, hnew]
    simp
  · have hne : old.bind d.indexOf? ≠ some index := by
      rw [← hnew]
      exact hsame
    refine ⟨fun _ => .inl hne, fun _ => ?_⟩
    obtain ⟨s₁, hmuted, hperform⟩ := perform_followTimeSource hs hlength hown hsame
    rw [hperform, hnew]
    -- what was taken out leaves no less room
    have hroom₁ : ¬s₁.maxLinks ≤ s₁.linkCount := by
      have hcount := hmuted.linkCount_le
      have hmax := hmuted.sameFrames.maxLinks_eq
      omega
    rcases perform_hearBeacons hmuted.wellFormed
        ((hmuted.sameFrames.length?_eq _).trans hlength) hslot haway with
      ⟨s', hhear, hset⟩ | ⟨-, hfull⟩
    · rw [hhear]
      refine ⟨_, hset.link?_self, ?_⟩
      rw [toAttributes_placed]
      rfl
    · exact absurd hfull hroom₁

end Planner

end SlottedMesh
