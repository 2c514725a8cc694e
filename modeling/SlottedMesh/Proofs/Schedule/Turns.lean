import SlottedMesh.Proofs.Schedule.CellMap
import SlottedMesh.Proofs.Schedule.Extensional
import SlottedMesh.Proofs.Schedule.Rotation

/-!
# Turns of a slotframe

What a schedule offers in a slot is all that is due then, and nothing else: the links whose timeslot
the slot's count leaves by the length of their slotframe (`mem_current_iff_mem_links`), one of each
slotframe at most and by ascending slotframe (`pairwise_current`).  Nobody waits longer than others:
in a turn of a slotframe, wherever it begins, each link of the slotframe is offered once
(`length_slotsOn_turn`).  `Schedule.current_exact_and_fair` puts these together.
-/

namespace SlottedMesh.Schedule

variable {s : Schedule} {frame timeslot length : UInt16} {l : Link} {now : SlotNumber} {first : Nat}

/-! ## In one slot -/

/-- The links of a schedule are what its places show. -/
theorem mem_links_iff (hs : s.WellFormed) :
    l ∈ s.links ↔ s.link? l.frame l.timeslot = some l := by
  refine ⟨fun hl => ?_, mem_links⟩
  obtain ⟨f, hf, hlf⟩ := List.mem_flatMap.1 hl
  obtain ⟨id, hid⟩ := Table.mem_values_iff.1 hf
  have hshown := hs.link?_of_mem_values hid hlf
  rw [hs.frame_eq hshown]
  exact hshown

/-- What is offered in a slot is what is due in it. -/
theorem mem_current_iff_mem_links (hs : s.WellFormed) :
    (frame, l) ∈ s.current now ↔
      l ∈ s.links ∧ l.frame = frame ∧
        ∃ length, s.length? frame = some length ∧
          l.timeslot.toNat = now.toNat % length.toNat := by
  constructor
  · intro hcurrent
    obtain ⟨f, hf, hget⟩ := (mem_current_iff hs).1 hcurrent
    have hshown : s.link? frame (f.timeslotAt now) = some l := link?_eq_some_iff.2 ⟨f, hf, hget⟩
    refine ⟨mem_links hshown, hs.frame_eq hshown, f.length, ?_, ?_⟩
    · rw [length?, hf, Option.map_some]
    · rw [hs.timeslot_eq hshown, toNat_timeslotAt (hs.fits hf)]
  · rintro ⟨hl, rfl, length, hlength, hdue⟩
    exact (mem_current_iff_mod hs hlength ((mem_links_iff hs).1 hl)).2 hdue.symm

/-- What is offered comes by ascending slotframe, and so none comes twice. -/
theorem pairwise_current (hs : s.WellFormed) (now : SlotNumber) :
    (s.current now).Pairwise (·.1 < ·.1) := by
  have hids : s.frames.values.Pairwise fun f g => f.id < g.id := by
    rw [Table.values, List.pairwise_map]
    refine s.frames.ascending.imp_of_mem fun {e e'} he he' hlt => ?_
    rwa [(hs.fits (Table.get?_eq_some_iff.2 he)).id_eq,
      (hs.fits (Table.get?_eq_some_iff.2 he')).id_eq]
  refine List.Pairwise.filterMap _ (fun f g hlt e he e' he' => ?_) hids
  obtain ⟨l, -, rfl⟩ := Option.map_eq_some_iff.1 he
  obtain ⟨l', -, rfl⟩ := Option.map_eq_some_iff.1 he'
  exact hlt

/-! ## In a turn -/

/-- How often a link is offered in some slots is in how many of them it is on. -/
theorem count_flatMap_current (hs : s.WellFormed) (slots : List Nat) :
    (slots.flatMap fun k => s.current (.ofNat k)).count (frame, l) =
      (slots.filter fun k => (frame, l) ∈ s.current (.ofNat k)).length := by
  induction slots with
  | nil => rfl
  | cons k ks ih =>
    have hnodup : (s.current (.ofNat k)).Nodup :=
      (pairwise_current hs _).imp fun hlt heq => UInt16.ne_of_lt hlt (congrArg Prod.fst heq)
    rw [List.flatMap_cons, List.count_append, ih, hnodup.count, List.filter_cons]
    by_cases hon : (frame, l) ∈ s.current (.ofNat k)
    · rw [if_pos hon, if_pos (decide_eq_true hon), List.length_cons, Nat.add_comm]
    · rw [if_neg hon, if_neg (by simpa using hon), Nat.zero_add]

/-- In a turn of its slotframe a link is on in one slot. -/
theorem length_slotsOn_turn (hs : s.WellFormed) (hlength : s.length? frame = some length)
    (hl : s.link? frame timeslot = some l) (hroom : first + length.toNat ≤ 2 ^ 40) :
    (s.slotsOn frame l first length.toNat).length = 1 := by
  -- the counts of a turn leave each remainder once
  have hdue : timeslot.toNat ∈
      (Finset.Ico first (first + length.toNat)).image (· % length.toNat) := by
    rw [Nat.image_Ico_mod, Finset.mem_range]
    exact timeslot_lt_length hs hlength hl
  obtain ⟨k, hk, hkt⟩ := Finset.mem_image.1 hdue
  have hperm : (s.slotsOn frame l first length.toNat).Perm [k] := by
    rw [List.perm_ext_iff_of_nodup (nodup_slotsOn s frame l first _) (List.nodup_singleton k)]
    intro j
    rw [mem_slotsOn_iff hs hlength hl hroom, List.mem_singleton]
    constructor
    · rintro ⟨hj, hjt⟩
      exact Nat.mod_injOn_Ico first length.toNat hj hk (hjt.trans hkt.symm)
    · rintro rfl
      exact ⟨hk, hkt⟩
  exact hperm.length_eq

/-- **Exact and fair.**  In each slot a well-formed schedule offers the links whose timeslot is the
remainder of the slot's count by the length of their slotframe, each with the id of its slotframe,
and no others; they come by strictly ascending slotframe, so that there is one of each at most.  In
every window of as many slots as a slotframe is long that does not wrap, each link of the slotframe
is offered once. -/
theorem current_exact_and_fair (hs : s.WellFormed) :
    (∀ now frame l, (frame, l) ∈ s.current now ↔
      l ∈ s.links ∧ l.frame = frame ∧
        ∃ length, s.length? frame = some length ∧
          l.timeslot.toNat = now.toNat % length.toNat) ∧
    (∀ now, (s.current now).Pairwise (·.1 < ·.1)) ∧
    ∀ l ∈ s.links, ∃ length, s.length? l.frame = some length ∧
      ∀ first, first + length.toNat ≤ 2 ^ 40 →
        ((List.range' first length.toNat).flatMap fun k => s.current (.ofNat k)).count
          (l.frame, l) = 1 := by
  refine ⟨fun now frame l => mem_current_iff_mem_links hs, pairwise_current hs, fun l hl => ?_⟩
  have hshown := (mem_links_iff hs).1 hl
  obtain ⟨length, hlength⟩ := exists_length? hshown
  refine ⟨length, hlength, fun first hroom => ?_⟩
  rw [count_flatMap_current hs]
  exact length_slotsOn_turn hs hlength hshown hroom

/-! Two slotframes, of which the second one has the smaller id, in the last slot before the count
wraps and in the last turn that ends there. -/

/-- The schedule. -/
def twoFrames : Schedule :=
  ((empty 2 4).run [.addFrame 7 3, .putLink 7 0 ⟨.all, .normal, .broadcast, 7⟩,
    .putLink 7 2 ⟨.rxOnly, .normal, .unbound, 7⟩, .addFrame 4 5,
    .putLink 4 0 ⟨.txOnly, .normal, .broadcast, 4⟩]).1

/-- Its link in the slotframe of five timeslots. -/
def outgoingLink : Link := ⟨⟨.txOnly, .normal, .broadcast, 4⟩, 2, 4, 0, none⟩

/-- The link of the second slotframe is offered in the last slot before the wrap, and once in the
turn that ends there. -/
theorem current_exact_and_fair_twoFrames :
    twoFrames.WellFormed ∧ outgoingLink ∈ twoFrames.links ∧
      (4, outgoingLink) ∈ twoFrames.current (.ofNat (2 ^ 40 - 1)) ∧
      ((List.range' (2 ^ 40 - 5) 5).flatMap fun k => twoFrames.current (.ofNat k)).count
        (4, outgoingLink) = 1 := by
  have hs : twoFrames.WellFormed := (WellFormed.empty 2 4).run _
  obtain ⟨hexact, -, hfair⟩ := current_exact_and_fair hs
  have hl : outgoingLink ∈ twoFrames.links := by decide +kernel
  obtain ⟨length, hlength, hturn⟩ := hfair outgoingLink hl
  obtain rfl : (5 : UInt16) = length := by
    have hfive : twoFrames.length? 4 = some 5 := by decide +kernel
    exact Option.some.inj (hfive.symm.trans hlength)
  refine ⟨hs, hl, (hexact _ _ _).2 ⟨hl, rfl, 5, hlength, by decide +kernel⟩, ?_⟩
  exact hturn (2 ^ 40 - 5) (by decide)

end SlottedMesh.Schedule
