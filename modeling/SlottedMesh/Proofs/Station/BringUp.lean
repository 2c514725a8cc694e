import SlottedMesh.Proofs.Cells.InitialCells
import SlottedMesh.Proofs.Settings.Sound
import SlottedMesh.Proofs.Station.Run
import SlottedMesh.Proofs.Time.Residue

/-!
# Coming up

Settings are checked before a node comes up with them, and the check looks for whatever could be
refused later on.  Two things are left that it does not look at.  One is whether the schedule has
room for the links of the first layout, which depends on the index of the node.  The other is
whether sixteen bits can count the channels, without which they are no hopping sequence.

* `Settings.Sound.exists_planner`, `Settings.Sound.exists_hoppingSequence_iff` and
  `Settings.Sound.exists_layOut_iff` say of each step of coming up when it succeeds, and
  `exists_bringUp` that these are all.
* `Settings.layOut_of_validate` says besides what the layout makes if it succeeds, and why it ends
  early otherwise.
* `bringUp_iff_countable` is the main statement: with checked settings, an address, an index and
  room, a node comes up if and only if its channels can be counted.
* `not_forall_bringUp`: the check alone does not see to that.
-/

namespace SlottedMesh

/-- The check asks for room for the slotframes that a layout makes. -/
theorem Settings.neededFrames_eq (plan : CellPlan) :
    Settings.neededFrames plan = plan.frames.length := by
  unfold Settings.neededFrames CellPlan.frames CellPlan.sharedFrames CellPlan.spillFrames
  cases plan.sharedPeriod <;> cases plan.spillPeriod <;> rfl

namespace Settings.Sound

variable {s : Settings}

/-- Any plan can be followed from any index. -/
theorem exists_planner (h : s.Sound) (index : UInt16) :
    ∃ lifetime, Planner.of? s.plan index s.schedule.slotLength = .ok ⟨s.plan, index, lifetime⟩ := by
  unfold Planner.of? Interval.wholeSlots
  rw [if_neg h.slotLength_ne_zero]
  exact ⟨_, rfl⟩

/-- The channels are a hopping sequence if and only if sixteen bits can count them. -/
theorem exists_hoppingSequence_iff (h : s.Sound) :
    (∃ hopping, s.hoppingSequence = .ok hopping) ↔ s.schedule.channels.size < 2 ^ 16 := by
  constructor
  · rintro ⟨hopping, hhopping⟩
    exact (HoppingSequence.ofChannels_eq_ok hhopping).2.1
  · intro hsize
    exact HoppingSequence.exists_ofChannels h.channels_pos hsize

/-- The layout succeeds if and only if there is room for the cells that the node has from the
start. -/
theorem exists_layOut_iff (h : s.Sound) (index : UInt16) (lifetime : UInt32) :
    (∃ schedule, (Planner.mk s.plan index lifetime).layOut.perform
        (.empty s.schedule.maxFrames s.schedule.maxLinks) = (schedule, .ok ())) ↔
      s.plan.initialCells index ≤ s.schedule.maxLinks := by
  have hframes : s.plan.frames.length ≤ s.schedule.maxFrames := by
    rw [← Settings.neededFrames_eq]
    exact h.neededFrames_le
  rw [Planner.exists_layOut_iff h.hasLengths h.timeslot_lt hframes,
    Planner.card_placesOf_laid h.hasLengths]

end Settings.Sound

namespace Settings

/-- **Room for the first layout.**  With checked settings, the layout of any index succeeds if and
only if the schedule may have as many links as that node has cells from the start.  It makes as many
links then, and the slotframes of the plan with their lengths.  Want of room for links is the only
reason for which it may end early. -/
theorem layOut_of_validate {s : Settings} (hvalid : s.validate = .ok ()) (index : UInt16)
    (lifetime : UInt32) :
    ((∃ schedule, (Planner.mk s.plan index lifetime).layOut.perform
        (.empty s.schedule.maxFrames s.schedule.maxLinks) = (schedule, .ok ())) ↔
      s.plan.initialCells index ≤ s.schedule.maxLinks) ∧
    (∀ schedule, (Planner.mk s.plan index lifetime).layOut.perform
        (.empty s.schedule.maxFrames s.schedule.maxLinks) = (schedule, .ok ()) →
      schedule.linkCount = s.plan.initialCells index ∧
        ∀ g, schedule.length? g = s.plan.length? g) ∧
    ∀ schedule e, (Planner.mk s.plan index lifetime).layOut.perform
        (.empty s.schedule.maxFrames s.schedule.maxLinks) = (schedule, .error e) →
      e = .refused (.full .link s.schedule.maxLinks) := by
  have hsound := validate_eq_ok_iff.1 hvalid
  have hframes : s.plan.frames.length ≤ s.schedule.maxFrames := by
    rw [← neededFrames_eq]
    exact hsound.neededFrames_le
  have hends := Planner.perform_layOut (p := ⟨s.plan, index, lifetime⟩) s.schedule.maxLinks
    hsound.hasLengths hsound.timeslot_lt hframes
  rw [Planner.card_placesOf_laid hsound.hasLengths] at hends
  refine ⟨hsound.exists_layOut_iff index lifetime, fun schedule hlayOut => ?_,
    fun schedule e hlayOut => ?_⟩
  · rcases hends with ⟨schedule', hlayOut', hcount, -⟩ | ⟨schedule', hlayOut', -⟩
    · rw [hlayOut] at hlayOut'
      cases hlayOut'
      exact ⟨hcount, (Planner.pristine_layOut hlayOut).2.1⟩
    · rw [hlayOut] at hlayOut'
      cases hlayOut'
  · rcases hends with ⟨schedule', hlayOut', -⟩ | ⟨schedule', hlayOut', -⟩
    · rw [hlayOut] at hlayOut'
      cases hlayOut'
    · rw [hlayOut] at hlayOut'
      cases hlayOut'
      rfl

/-! The schedule may have two links.  That is enough for a node that no fixed link names, but not
for the first one. -/

/-- Settings with room for the cell for beacons and the one that all nodes share. -/
def scarce : Settings :=
  { standard with
    schedule := { standardSchedule with maxLinks := 2 }
    plan := { CellPlan.standard with fixedLinks := [⟨1, 2, 7⟩] } }

/-- The node that takes part in no fixed link has room, and the one that does has not. -/
theorem layOut_of_validate_scarce :
    scarce.validate = .ok () ∧
      (∃ schedule, (Planner.mk scarce.plan 3 8000).layOut.perform (.empty 4 2) =
        (schedule, .ok ()) ∧ schedule.linkCount = 2) ∧
      ∃ schedule, (Planner.mk scarce.plan 1 8000).layOut.perform (.empty 4 2) =
        (schedule, .error (.refused (.full .link 2))) := by
  have hvalid : scarce.validate = .ok () := by decide
  obtain ⟨hother, hcounts, -⟩ := layOut_of_validate hvalid 3 8000
  obtain ⟨hfirst, -, hreason⟩ := layOut_of_validate hvalid 1 8000
  obtain ⟨schedule, hlayOut⟩ := hother.2 (by decide)
  refine ⟨hvalid, ⟨schedule, hlayOut, (hcounts schedule hlayOut).1⟩, ?_⟩
  rcases hends : (Planner.mk scarce.plan 1 8000).layOut.perform (.empty 4 2) with ⟨s', e | x⟩
  · rw [hreason s' e hends]
    exact ⟨s', rfl⟩
  · exact absurd (hfirst.1 ⟨s', hends⟩) (by decide)

end Settings

namespace Station

variable {settings : Settings} {driver : Gate.Driver} {address : Address} {index : UInt16}
  {p : Planner}

/-- A node comes up if its channels are a hopping sequence and its layout succeeds. -/
theorem exists_bringUp (hvalid : settings.validate = .ok ())
    (haddress : settings.directory.addressOf? settings.nodeId = some address)
    (hindex : settings.directory.indexOfId? settings.nodeId = some index)
    (hplanner : Planner.of? settings.plan index settings.schedule.slotLength = .ok p)
    {hopping : HoppingSequence} (hhopping : settings.hoppingSequence = .ok hopping)
    {schedule : Schedule}
    (hlayOut : p.layOut.perform (.empty settings.schedule.maxFrames settings.schedule.maxLinks) =
      (schedule, .ok ())) : ∃ s, bringUp settings driver = .ok s := by
  unfold bringUp
  simp only [hvalid, haddress, hindex, hplanner, hhopping, hlayOut, orRefuse, Except.mapError,
    bind, Except.bind]
  exact ⟨_, rfl⟩

/-- It does not come up with channels that are none. -/
theorem bringUp_of_hopping_error (hvalid : settings.validate = .ok ())
    (haddress : settings.directory.addressOf? settings.nodeId = some address)
    (hindex : settings.directory.indexOfId? settings.nodeId = some index)
    (hplanner : Planner.of? settings.plan index settings.schedule.slotLength = .ok p)
    {e : TimingError} (hhopping : settings.hoppingSequence = .error e) :
    bringUp settings driver = .error (.hopping e) := by
  unfold bringUp
  simp only [hvalid, haddress, hindex, hplanner, hhopping, orRefuse, Except.mapError, bind,
    Except.bind]

/-- **Coming up.**  A node with checked settings, an address, an index and room for the cells that
it has from the start comes up if and only if sixteen bits can count its channels, and it is for
this reason alone that they may be no hopping sequence. -/
theorem bringUp_iff_countable (hvalid : settings.validate = .ok ())
    (haddress : settings.directory.addressOf? settings.nodeId = some address)
    (hindex : settings.directory.indexOfId? settings.nodeId = some index)
    (hroom : settings.plan.initialCells index ≤ settings.schedule.maxLinks)
    (driver : Gate.Driver) :
    ((∃ s, bringUp settings driver = .ok s) ↔ settings.schedule.channels.size < 2 ^ 16) ∧
      ((∃ h, settings.hoppingSequence = .ok h) ↔ settings.schedule.channels.size < 2 ^ 16) ∧
      (2 ^ 16 ≤ settings.schedule.channels.size →
        bringUp settings driver = .error (.hopping .zeroDivisor)) := by
  have hsound := Settings.validate_eq_ok_iff.1 hvalid
  obtain ⟨lifetime, hplanner⟩ := hsound.exists_planner index
  obtain ⟨schedule, hlayOut⟩ := (hsound.exists_layOut_iff index lifetime).2 hroom
  refine ⟨?_, hsound.exists_hoppingSequence_iff, ?_⟩
  · constructor
    · rintro ⟨s, hup⟩
      exact hsound.exists_hoppingSequence_iff.1 ⟨s.hopping, (cameUp_of_bringUp hup).hopping_eq⟩
    · intro hsize
      obtain ⟨hopping, hhopping⟩ := hsound.exists_hoppingSequence_iff.2 hsize
      exact exists_bringUp hvalid haddress hindex hplanner hhopping hlayOut
  · intro hsize
    have hhopping : settings.hoppingSequence = .error .zeroDivisor :=
      HoppingSequence.ofChannels_of_le hsize
    exact bringUp_of_hopping_error hvalid haddress hindex hplanner hhopping

/-! Three fixed links name the node, two of them at one timeslot, and a fourth does not.  With the
cell for beacons and no shared one, three links are just enough. -/

/-- Settings with room for three links. -/
def justEnough : Settings :=
  { Settings.standard with
    schedule := { Settings.standardSchedule with maxFrames := 2, maxLinks := 3, channels := #[11] }
    plan := { CellPlan.standard with
      sharedPeriod := none
      fixedLinks := [⟨1, 2, 7⟩, ⟨3, 1, 7⟩, ⟨2, 1, 252⟩, ⟨2, 3, 9⟩] } }

/-- The node with just enough room for three links comes up. -/
theorem bringUp_iff_countable_justEnough :
    justEnough.validate = .ok () ∧
      justEnough.directory.addressOf? justEnough.nodeId = some (.ofLastByte 1) ∧
      justEnough.directory.indexOfId? justEnough.nodeId = some 1 ∧
      justEnough.plan.initialCells 1 = 3 ∧ ∃ s, bringUp justEnough .quiet = .ok s := by
  have hvalid : justEnough.validate = .ok () := by decide
  have haddress : justEnough.directory.addressOf? justEnough.nodeId = some (.ofLastByte 1) := rfl
  have hindex : justEnough.directory.indexOfId? justEnough.nodeId = some 1 := rfl
  have hcells : justEnough.plan.initialCells 1 = 3 := by decide
  have hup := (bringUp_iff_countable hvalid haddress hindex (Nat.le_of_eq hcells) .quiet).1
  exact ⟨hvalid, haddress, hindex, hcells, hup.2 (by decide)⟩

/-- Settings with one channel more than sixteen bits can count. -/
def manyChannels : Settings :=
  { Settings.standard with
    schedule := { Settings.standardSchedule with channels := .replicate (2 ^ 16) 11 } }

/-- It is not so that a node with checked settings, an address, an index and room comes up. -/
theorem not_forall_bringUp :
    ¬∀ (settings : Settings) (address : Address) (index : UInt16) (driver : Gate.Driver),
      settings.validate = .ok () →
      settings.directory.addressOf? settings.nodeId = some address →
      settings.directory.indexOfId? settings.nodeId = some index →
      settings.plan.initialCells index ≤ settings.schedule.maxLinks →
      ∃ s, bringUp settings driver = .ok s := by
  intro h
  have hsize : manyChannels.schedule.channels.size = 2 ^ 16 := Array.size_replicate
  have hlengths : CellPlan.standard.HasLengths := (Settings.forall_periods_iff _).1 (by decide)
  have hsound : manyChannels.Sound :=
    { nodeId_ne_zero := by decide
      slotLength_ne_zero := by decide
      channels_pos := by
        rw [hsize]
        decide
      hasLengths := hlengths
      neededFrames_le := by decide
      timeslot_lt := nofun
      listed := fun hnodes => absurd rfl hnodes }
  have hvalid := Settings.validate_eq_ok_iff.2 hsound
  obtain ⟨s, hup⟩ := h manyChannels (.ofLastByte 1) 1 .quiet hvalid rfl rfl (by decide)
  have hcount := hsound.exists_hoppingSequence_iff.1 ⟨s.hopping, (cameUp_of_bringUp hup).hopping_eq⟩
  exact absurd hsize (Nat.ne_of_lt hcount)

end Station

end SlottedMesh
