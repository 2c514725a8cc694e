import SlottedMesh.Proofs.Checked.Lookup
import SlottedMesh.Settings.Basic

/-!
# Settings without problems

`Sound` says of settings what their check looks for, one thing after another: ids, lengths of slots
and slotframes, and room for the slotframes.  `validate_eq_ok_iff` says that the check accepts these
settings and no others.
-/

namespace SlottedMesh.Settings

/-- Settings that a node can work with, as far as the check looks at them. -/
structure Sound (s : Settings) : Prop where
  /-- The node does not have the id that stands for all nodes. -/
  nodeId_ne_zero : s.nodeId ≠ 0
  /-- Slots have a length. -/
  slotLength_ne_zero : s.schedule.slotLength ≠ 0
  /-- There is a channel to hop to. -/
  channels_pos : 0 < s.schedule.channels.size
  /-- Slotframes have lengths. -/
  hasLengths : s.plan.HasLengths
  /-- The schedule has room for the slotframes of the plan. -/
  neededFrames_le : neededFrames s.plan ≤ s.schedule.maxFrames
  /-- Fixed links lie in the unicast slotframe. -/
  timeslot_lt : ∀ l ∈ s.plan.fixedLinks, l.timeslot < s.plan.unicastPeriod
  /-- If the deployment has nodes, this is one of them. -/
  listed : s.directory.nodes ≠ [] → ∃ n ∈ s.directory.nodes, n.1 = s.nodeId

variable {s : Settings}

/-- A problem that is not there is not told. -/
@[simp] theorem problemIf_eq_nil_iff {there : Bool} {p : Problem} :
    problemIf there p = [] ↔ there = false := by
  cases there <;> simp [problemIf]

/-- None of the lengths that are set is zero if none of the slotframes has the length zero. -/
theorem forall_periods_iff (plan : CellPlan) :
    (∀ period ∈ periods plan, ¬period.2 = some 0) ↔ plan.HasLengths := by
  simp only [periods, List.forall_mem_cons]
  constructor
  · rintro ⟨hbeacon, hshared, hunicast, hspill, -⟩ g
    unfold CellPlan.length?
    split
    · exact hbeacon
    · split
      · exact hshared
      · split
        · exact hunicast
        · split
          · exact hspill
          · exact nofun
  · intro h
    exact ⟨h CellPlan.beaconFrame, h CellPlan.sharedFrame, h CellPlan.unicastFrame,
      h CellPlan.spillFrame, nofun⟩

/-- The deployment has nodes, but not this one. -/
theorem unlisted_eq_false_iff {nodes : List (UInt16 × Address)} {id : UInt16} :
    (!nodes.isEmpty && nodes.all (·.1 ≠ id)) = false ↔
      (nodes ≠ [] → ∃ n ∈ nodes, n.1 = id) := by
  cases nodes with
  | nil => simp
  | cons n nodes => by_cases hn : n.1 = id <;> simp [hn]

/-- The check accepts the settings that a node can work with. -/
theorem validate_eq_ok_iff : s.validate = .ok () ↔ s.Sound := by
  have hproblems : s.validate = .ok () ↔ s.problems = [] := by
    unfold validate
    cases s.problems <;> simp
  rw [hproblems]
  unfold problems
  simp only [List.append_eq_nil_iff, problemIf_eq_nil_iff, List.map_eq_nil_iff,
    unlisted_eq_false_iff, List.filter_eq_nil_iff, decide_eq_false_iff_not, decide_eq_true_eq,
    Nat.not_lt, UInt16.not_le, forall_periods_iff]
  constructor
  · rintro ⟨⟨⟨⟨⟨⟨hid, hslot⟩, hchannels⟩, hlengths⟩, hframes⟩, hfixed⟩, hlisted⟩
    refine ⟨hid, hslot, ?_, hlengths, hframes, hfixed, hlisted⟩
    simpa [Array.size_pos_iff] using hchannels
  · intro h
    refine ⟨⟨⟨⟨⟨⟨h.nodeId_ne_zero, h.slotLength_ne_zero⟩, ?_⟩, h.hasLengths⟩,
      h.neededFrames_le⟩, h.timeslot_lt⟩, h.listed⟩
    simpa [Array.size_pos_iff] using h.channels_pos

end SlottedMesh.Settings
