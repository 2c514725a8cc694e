import Mathlib.Data.Finset.Card
import SlottedMesh.Proofs.Cells.Permanent
import SlottedMesh.Proofs.Checked.Lookup
import SlottedMesh.Proofs.Schedule.CellMap

/-!
# Room for a layout

A layout makes slotframes and puts links, and each step may be refused.  Where slotframes have
lengths and there is room for all of them, there is one reason left for which it can be: that the
links need more places than the schedule may have links.

* `placeSet` is where a schedule has links, and `placesOf` where links are put.  What counts are the
  places: of links that are put in one place the last one wins, and the others need no room.
* `Edit.Proceeds` says of an edit that it goes through, or else ends for want of room, and
  `proceeds_bind` that edits one after the other do if each of them does.
* `perform_layOut` says this of the layout, and `exists_layOut_iff` that it succeeds if and only if
  there is room for its places.
-/

namespace SlottedMesh

/-! ## Slotframes of a plan -/

namespace CellPlan

/-- The slotframe with the cell that all nodes share, if the plan has one. -/
def sharedFrames (plan : CellPlan) : List UInt16 :=
  plan.sharedPeriod.elim [] fun _ => [sharedFrame]

/-- The second unicast slotframe, if the plan has one. -/
def spillFrames (plan : CellPlan) : List UInt16 :=
  plan.spillPeriod.elim [] fun _ => [spillFrame]

/-- The slotframes of a plan, in the order in which a layout makes them. -/
def frames (plan : CellPlan) : List UInt16 :=
  beaconFrame :: plan.sharedFrames ++ unicastFrame :: plan.spillFrames

/-- No slotframe of a plan is made twice. -/
theorem nodup_frames (plan : CellPlan) : plan.frames.Nodup := by
  unfold frames sharedFrames spillFrames
  cases plan.sharedPeriod <;> cases plan.spillPeriod <;>
    simp [beaconFrame, sharedFrame, unicastFrame, spillFrame]

/-- These are the slotframes that have a length. -/
theorem mem_frames_iff {plan : CellPlan} {g : UInt16} :
    g ∈ plan.frames ↔ (plan.length? g).isSome := by
  have hshared : g ∈ plan.sharedFrames ↔ g = sharedFrame ∧ plan.sharedPeriod.isSome := by
    unfold sharedFrames
    cases plan.sharedPeriod <;> simp
  have hspill : g ∈ plan.spillFrames ↔ g = spillFrame ∧ plan.spillPeriod.isSome := by
    unfold spillFrames
    cases plan.spillPeriod <;> simp
  unfold frames length?
  rw [List.mem_append, List.mem_cons, List.mem_cons, hshared, hspill]
  by_cases hbeacon : g = beaconFrame
  · simp [hbeacon]
  · by_cases hcommon : g = sharedFrame
    · subst hcommon
      simp [sharedFrame, beaconFrame, unicastFrame, spillFrame]
    · by_cases hunicast : g = unicastFrame
      · subst hunicast
        simp [sharedFrame, beaconFrame, unicastFrame]
      · by_cases hsecond : g = spillFrame
        · subst hsecond
          simp [sharedFrame, beaconFrame, unicastFrame, spillFrame]
        · simp [hbeacon, hcommon, hunicast, hsecond]

end CellPlan

/-! ## Places -/

/-- Where links are put. -/
def placesOf (xs : List Placing) : Finset (UInt16 × UInt16) :=
  (xs.map fun x => (x.frame, x.timeslot)).toFinset

/-- Links are put where either list puts them. -/
theorem placesOf_append (xs ys : List Placing) :
    placesOf (xs ++ ys) = placesOf xs ∪ placesOf ys := by
  unfold placesOf
  rw [List.map_append, List.toFinset_append]

/-- Something is set at a place if it was before or is put there. -/
theorem isSome_shown {xs : List Placing} {g t : UInt16} {o : Option Link.Attributes} :
    (shown xs g t o).isSome ↔ o.isSome ∨ (g, t) ∈ placesOf xs := by
  induction xs generalizing o with
  | nil => simp [shown, placesOf]
  | cons x xs ih =>
    have hcons : (g, t) ∈ placesOf (x :: xs) ↔
        (g = x.frame ∧ t = x.timeslot) ∨ (g, t) ∈ placesOf xs := by
      simp [placesOf]
    rw [shown, List.foldl_cons, hcons]
    refine ih.trans ?_
    split
    · rename_i hplace
      simp [hplace]
    · rename_i hplace
      simp [hplace]

namespace Schedule

variable {s s' : Schedule} {plan : CellPlan} {ids : List UInt16} {id length : UInt16}

/-- Where the schedule has links. -/
def placeSet (s : Schedule) : Finset (UInt16 × UInt16) := s.places.toFinset

/-- There are as many places as links. -/
theorem card_placeSet (hs : s.WellFormed) : s.placeSet.card = s.linkCount := by
  unfold placeSet
  rw [List.toFinset_card_of_nodup s.nodup_places, length_places, hs.linkCount_eq]

/-- The places are where something is set. -/
theorem mem_placeSet_iff {place : UInt16 × UInt16} :
    place ∈ s.placeSet ↔ (s.attributes? place.1 place.2).isSome := by
  unfold placeSet attributes?
  rw [List.mem_toFinset, mem_places_iff, Option.isSome_map]

/-- Links that are put add their places. -/
theorem Laid.placeSet_eq {xs : List Placing} (h : s.Laid xs s') :
    s'.placeSet = s.placeSet ∪ placesOf xs := by
  ext ⟨g, t⟩
  rw [Finset.mem_union, mem_placeSet_iff, mem_placeSet_iff, h.attributes?_eq, isSome_shown]

/-- The schedule has these slotframes of the plan and no others, and there is room for all of the
plan. -/
structure HasFrames (plan : CellPlan) (ids : List UInt16) (s : Schedule) : Prop where
  /-- What is kept twice agrees. -/
  wellFormed : s.WellFormed
  /-- The slotframes have the lengths of the plan. -/
  length?_eq (g : UInt16) : s.length? g = if g ∈ ids then plan.length? g else none
  /-- There is room for those that are missing. -/
  frames_le : plan.frames.length ≤ s.maxFrames

/-- There are no more slotframes than those that were made. -/
theorem HasFrames.size_le (hs : s.HasFrames plan ids) : s.frames.size ≤ ids.length := by
  have hsubset : {g | (s.frames.get? g).isSome} ⊆ (ids.toFinset : Set UInt16) := by
    intro g hg
    have hlength := hs.length?_eq g
    by_contra hnot
    rw [if_neg fun hmem => hnot (List.mem_toFinset.2 hmem)] at hlength
    obtain ⟨f, hf⟩ := Option.isSome_iff_exists.1 hg
    rw [length?, frame?, hf] at hlength
    cases hlength
  calc s.frames.size
      = {g | (s.frames.get? g).isSome}.ncard := (Table.ncard_support s.frames).symm
    _ ≤ (ids.toFinset : Set UInt16).ncard := Set.ncard_le_ncard hsubset (Finset.finite_toSet _)
    _ = ids.toFinset.card := Set.ncard_coe_finset _
    _ ≤ ids.length := List.toFinset_card_le ids

/-- Before the layout there are no slotframes. -/
theorem hasFrames_empty {maxFrames : Nat} (h : plan.frames.length ≤ maxFrames) (maxLinks : Nat) :
    (empty maxFrames maxLinks).HasFrames plan [] :=
  ⟨.empty maxFrames maxLinks, fun _ => rfl, h⟩

/-- A slotframe that has a length and is not there yet can be made if there is room. -/
theorem exists_addFrame (hid : s.length? id = none) (hlength : length ≠ 0)
    (hroom : s.frames.size < s.maxFrames) :
    ∃ s' f, s.addFrame id length = .ok (s', f) ∧ s'.maxFrames = s.maxFrames := by
  have hnone : s.frame? id = none := Option.map_eq_none_iff.1 hid
  rw [addFrame_eq]
  unfold Divisor.of?
  simp only [hnone, dif_neg hlength, if_neg (Nat.not_le.2 hroom)]
  exact ⟨_, _, rfl, rfl⟩

end Schedule

/-! ## Edits that want nothing but room -/

/-- From a schedule with the slotframes `ids` of a plan, an edit that succeeds puts these links and
leaves the slotframes `ids'`.  It does so unless the places of the links are too many. -/
structure Edit.Proceeds {α : Type} (plan : CellPlan) (ids ids' : List UInt16) (xs : List Placing)
    (e : Edit α) : Prop where
  /-- If the edit succeeds, these are put. -/
  lays : Lays xs e
  /-- It succeeds if there is room for them. -/
  ok_or_full {s : Schedule} : s.HasFrames plan ids →
    (∃ s' x, e.perform s = (s', .ok x) ∧ s'.HasFrames plan ids') ∨
      ∃ s', e.perform s = (s', .error (.refused (.full .link s.maxLinks))) ∧
        s.maxLinks < (s.placeSet ∪ placesOf xs).card

namespace Edit

open Schedule

variable {α β : Type} {plan : CellPlan} {ids ids' ids'' : List UInt16} {xs ys : List Placing}

/-- A result always goes on. -/
theorem proceeds_pure (x : α) : Proceeds plan ids ids [] (pure x : Edit α) where
  lays := lays_pure x
  ok_or_full {s} hs := .inl ⟨s, x, rfl, hs⟩

/-- An edit proceeds as its first part does and then as its second. -/
theorem proceeds_bind {e : Edit α} {f : α → Edit β} (he : e.Proceeds plan ids ids' xs)
    (hf : ∀ x, (f x).Proceeds plan ids' ids'' ys) :
    (e >>= f).Proceeds plan ids ids'' (xs ++ ys) where
  lays := lays_bind he.lays fun x => (hf x).lays
  ok_or_full {s} hs := by
    rw [placesOf_append, ← Finset.union_assoc]
    rcases he.ok_or_full hs with ⟨s₁, x, hfirst, hs₁⟩ | ⟨s₁, hfirst, hfull⟩
    · have hlaid := he.lays hs.wellFormed hfirst
      rw [← hlaid.placeSet_eq, ← hlaid.maxLinks_eq, Change.perform_bind, hfirst]
      exact (hf x).ok_or_full hs₁
    · right
      refine ⟨s₁, ?_, Nat.lt_of_lt_of_le hfull (Finset.card_le_card Finset.subset_union_left)⟩
      rw [Change.perform_bind, hfirst]

/-- A place that exists does not stop an edit. -/
theorem proceeds_place {o : Option α} {ys : α → List Placing} {f : α → Edit β} {x : α}
    (ho : o = some x) (hf : (f x).Proceeds plan ids ids' (ys x)) :
    (place o >>= f).Proceeds plan ids ids' (o.elim [] ys) := by
  subst ho
  exact hf

/-- The next slotframe of the plan. -/
theorem proceeds_addFrame {id length : UInt16} (hplan : plan.HasLengths)
    (hlength : plan.length? id = some length) (hnext : ids ++ [id] <+: plan.frames) :
    Proceeds plan ids (ids ++ [id]) [] (addFrame id length) where
  lays := lays_addFrame id length
  ok_or_full {s} hs := by
    have hid : id ∉ ids := by
      have hnodup := plan.nodup_frames.sublist hnext.sublist
      exact fun hmem => (List.disjoint_of_nodup_append hnodup) hmem (List.mem_singleton_self id)
    have hmore : ids.length < plan.frames.length := by
      have hlength := hnext.length_le
      rwa [List.length_append] at hlength
    have hnone : s.length? id = none := (hs.length?_eq id).trans (if_neg hid)
    have hne : length ≠ 0 := fun hzero => hplan id (hlength.trans (congrArg some hzero))
    have hroom : s.frames.size < s.maxFrames :=
      Nat.lt_of_le_of_lt hs.size_le (Nat.lt_of_lt_of_le hmore hs.frames_le)
    obtain ⟨s', f, hadd, hframes⟩ := exists_addFrame hnone hne hroom
    left
    refine ⟨s', (), ?_, hs.wellFormed.addFrame hadd, fun g => ?_, hframes ▸ hs.frames_le⟩
    · rw [perform_addFrame, hadd]
    · rw [(addFrame_eq_ok hadd).1, hs.length?_eq]
      by_cases hg : g = id
      · rw [if_pos hg, hg, hlength, if_pos (by simp)]
      · rw [if_neg hg]
        simp only [List.mem_append, List.mem_singleton, hg, or_false]

/-- A link in a slotframe that is there. -/
theorem proceeds_putLink (cell : Cell) {length : UInt16} (hframe : cell.frame ∈ ids)
    (hlength : plan.length? cell.frame = some length) (htimeslot : cell.timeslot < length)
    (options : Link.Options) (kind : Link.Kind) (peer : Link.Peer) :
    Proceeds plan ids ids [⟨cell.frame, cell.timeslot, ⟨options, kind, peer, cell.channelOffset⟩⟩]
      (putLink cell options kind peer) where
  lays := lays_putLink cell options kind peer
  ok_or_full {s} hs := by
    have hlength' : s.length? cell.frame = some length :=
      (hs.length?_eq _).trans ((if_pos hframe).trans hlength)
    rcases putLink_eq_ok_or_full hlength' htimeslot ⟨options, kind, peer, cell.channelOffset⟩ with
      ⟨s', l, hput⟩ | ⟨hput, hnone, hfull⟩
    · left
      have hset := (setAt_putLink hs.wellFormed hput).2
      refine ⟨s', (), ?_, hset.wellFormed, fun g => ?_, ?_⟩
      · rw [perform_putLink, hput]
      · exact (hset.sameFrames.length?_eq g).trans (hs.length?_eq g)
      · rw [hset.sameFrames.maxFrames_eq]
        exact hs.frames_le
    · right
      refine ⟨s, ?_, ?_⟩
      · rw [perform_putLink, hput]
      · -- the place is a new one, beside those of the links that there are
        have hnew : (cell.frame, cell.timeslot) ∉ s.placeSet := by
          rw [mem_placeSet_iff, attributes?, hnone]
          simp
        show s.maxLinks < (s.placeSet ∪ {(cell.frame, cell.timeslot)}).card
        rw [Finset.card_union_of_disjoint (Finset.disjoint_singleton_right.2 hnew),
          Finset.card_singleton, card_placeSet hs.wellFormed]
        omega

end Edit

/-! ## The layout -/

namespace Planner

open Schedule Edit

variable {p : Planner}

/-- Where slotframes have lengths, the first part of a layout proceeds, -/
theorem proceeds_layOutBeacons (hplan : p.plan.HasLengths) :
    p.layOutBeacons.Proceeds p.plan [] [CellPlan.beaconFrame] p.laidBeacons := by
  have hslot := CellPlan.beaconSlot?_eq hplan.beaconPeriod_ne_zero p.index
  have htimeslot := CellPlan.lt_of_beaconSlot? hslot
  refine proceeds_bind (proceeds_addFrame hplan rfl ⟨_, rfl⟩) fun _ => ?_
  refine proceeds_place hslot ?_
  exact proceeds_putLink ⟨CellPlan.beaconFrame, _, CellPlan.beaconFrame⟩
    (List.mem_singleton_self _) rfl htimeslot _ _ _

/-- and so does the second, with or without a shared slotframe, -/
theorem proceeds_layOutShared (hplan : p.plan.HasLengths) :
    p.layOutShared.Proceeds p.plan [CellPlan.beaconFrame]
      (CellPlan.beaconFrame :: p.plan.sharedFrames) p.laidShared := by
  have hnext : CellPlan.beaconFrame :: p.plan.sharedFrames <+: p.plan.frames := ⟨_, rfl⟩
  unfold layOutShared laidShared
  unfold CellPlan.sharedFrames at hnext ⊢
  cases hperiod : p.plan.sharedPeriod with
  | none => exact proceeds_pure ()
  | some period =>
    rw [hperiod] at hnext
    have hlength : p.plan.length? CellPlan.sharedFrame = some period := hperiod
    have hne : period ≠ 0 := fun hzero => hplan _ (hlength.trans (congrArg some hzero))
    refine proceeds_bind (proceeds_addFrame hplan hlength hnext) fun _ => ?_
    exact proceeds_putLink ⟨CellPlan.sharedFrame, 0, CellPlan.sharedFrame⟩
      (List.mem_append_right _ (List.mem_singleton_self _)) hlength
      (UInt16.pos_iff_ne_zero.2 hne) _ _ _

/-- and the third, with one unicast slotframe or two, -/
theorem proceeds_layOutUnicast (hplan : p.plan.HasLengths) :
    p.layOutUnicast.Proceeds p.plan (CellPlan.beaconFrame :: p.plan.sharedFrames) p.plan.frames
      [] := by
  have hfirst : CellPlan.beaconFrame :: p.plan.sharedFrames ++ [CellPlan.unicastFrame] <+:
      p.plan.frames := ⟨p.plan.spillFrames, List.append_assoc _ _ _⟩
  refine proceeds_bind (proceeds_addFrame hplan rfl hfirst) fun _ => ?_
  have hframes : p.plan.frames = CellPlan.beaconFrame :: p.plan.sharedFrames ++
      [CellPlan.unicastFrame] ++ p.plan.spillFrames :=
    (List.append_assoc _ [CellPlan.unicastFrame] _).symm
  rw [hframes]
  unfold CellPlan.spillFrames at hframes ⊢
  cases hspill : p.plan.spillPeriod with
  | none =>
    rw [Option.elim_none, List.append_nil]
    exact proceeds_pure ()
  | some spill =>
    rw [hspill] at hframes
    exact proceeds_addFrame hplan hspill ⟨[], by rw [List.append_nil, hframes]; rfl⟩

/-- The fixed links, all of which lie in the unicast slotframe. -/
theorem proceeds_layOutFixed
    (hfixed : ∀ l ∈ p.plan.fixedLinks, l.timeslot < p.plan.unicastPeriod) :
    p.layOutFixed.Proceeds p.plan p.plan.frames p.plan.frames p.laidFixed := by
  unfold layOutFixed laidFixed
  generalize p.plan.fixedLinks = links at hfixed
  induction links with
  | nil => exact proceeds_pure ()
  | cons l links ih =>
    obtain ⟨hl, hlinks⟩ := List.forall_mem_cons.1 hfixed
    refine proceeds_bind ?_ fun _ => ih hlinks
    simp only []
    cases p.fixedOptions? l with
    | none => exact proceeds_pure ()
    | some options =>
      exact proceeds_putLink ⟨CellPlan.unicastFrame, l.timeslot, CellPlan.unicastFrame⟩
        (CellPlan.mem_frames_iff.2 rfl) rfl hl _ _ _

/-- and the last, as the node's own cell exists. -/
theorem proceeds_layOutOwn (hplan : p.plan.HasLengths) :
    p.layOutOwn.Proceeds p.plan p.plan.frames p.plan.frames p.laidOwn := by
  obtain ⟨cell, length, -, hcell, hlength, htimeslot⟩ :=
    CellPlan.exists_checkedCell hplan p.index
  refine proceeds_place hcell ?_
  have hframe : cell.frame ∈ p.plan.frames := by
    rw [CellPlan.mem_frames_iff, hlength]
    rfl
  exact proceeds_putLink cell hframe hlength htimeslot _ _ _

/-- The whole layout. -/
theorem proceeds_layOut (hplan : p.plan.HasLengths)
    (hfixed : ∀ l ∈ p.plan.fixedLinks, l.timeslot < p.plan.unicastPeriod) :
    p.layOut.Proceeds p.plan [] p.plan.frames p.laid := by
  refine proceeds_bind (proceeds_layOutBeacons hplan) fun _ => ?_
  refine proceeds_bind (proceeds_layOutShared hplan) fun _ => ?_
  refine proceeds_bind (proceeds_layOutUnicast hplan) fun _ => ?_
  cases p.plan.ownership with
  | sender => exact proceeds_layOutFixed hfixed
  | receiver => exact proceeds_layOutOwn hplan

/-- A layout makes the slotframes of the plan and puts all its links, or else there is not enough
room for the links. -/
theorem perform_layOut {maxFrames : Nat} (maxLinks : Nat) (hplan : p.plan.HasLengths)
    (hfixed : ∀ l ∈ p.plan.fixedLinks, l.timeslot < p.plan.unicastPeriod)
    (hframes : p.plan.frames.length ≤ maxFrames) :
    (∃ s, p.layOut.perform (.empty maxFrames maxLinks) = (s, .ok ()) ∧
        s.linkCount = (placesOf p.laid).card ∧ s.linkCount ≤ maxLinks) ∨
      ∃ s, p.layOut.perform (.empty maxFrames maxLinks) =
          (s, .error (.refused (.full .link maxLinks))) ∧
        maxLinks < (placesOf p.laid).card := by
  have hempty : (Schedule.empty maxFrames maxLinks).placeSet = ∅ := rfl
  rcases (proceeds_layOut hplan hfixed).ok_or_full (hasFrames_empty hframes maxLinks) with
    ⟨s, _, hlayOut, hs⟩ | ⟨s, hlayOut, hfull⟩
  · left
    have hlaid := laid_layOut hlayOut
    refine ⟨s, hlayOut, ?_, ?_⟩
    · rw [← card_placeSet hs.wellFormed, hlaid.placeSet_eq, hempty, Finset.empty_union]
    · have hle := hs.wellFormed.linkCount_le
      rwa [hlaid.maxLinks_eq] at hle
  · right
    rw [hempty, Finset.empty_union] at hfull
    exact ⟨s, hlayOut, hfull⟩

/-- It succeeds if and only if there is room for as many links as it has places. -/
theorem exists_layOut_iff {maxFrames maxLinks : Nat} (hplan : p.plan.HasLengths)
    (hfixed : ∀ l ∈ p.plan.fixedLinks, l.timeslot < p.plan.unicastPeriod)
    (hframes : p.plan.frames.length ≤ maxFrames) :
    (∃ s, p.layOut.perform (.empty maxFrames maxLinks) = (s, .ok ())) ↔
      (placesOf p.laid).card ≤ maxLinks := by
  rcases perform_layOut maxLinks hplan hfixed hframes with
    ⟨s, hlayOut, hcount, hroom⟩ | ⟨s, hlayOut, hfull⟩
  · exact iff_of_true ⟨s, hlayOut⟩ (hcount ▸ hroom)
  · refine iff_of_false ?_ (Nat.not_le.2 hfull)
    rintro ⟨s', hlayOut'⟩
    rw [hlayOut] at hlayOut'
    cases hlayOut'

end Planner

end SlottedMesh
