import Mathlib.Data.FinEnum
import Mathlib.Data.Set.Card
import SlottedMesh.Proofs.Cells.Sweep
import SlottedMesh.Proofs.Schedule.CellMap

/-!
# What a sweep leaves, link by link

A sweep takes the stale directions from the lent links of the unicast slotframes and takes out the
links that are of no more use.  What it leaves of a link is told here by two sets of directions
alone: those that are stale, and those in which the node uses the cell.

The sweep judges all links of a slotframe before it carries anything out, and counts what it carries
out.  Nothing of this can be refused, since links are changed only where they are; so the count is
that of the places that show something else than before.

* `leave_verdict` says that a verdict leaves what `Link.pruned` says.
* `ncard_changed_trans` adds up the places that two works on places apart from one another change,
  and `foldl_tallied` does so for a fold that counts.
* `sweep_pointwise` is the main statement.
-/

namespace SlottedMesh

instance : Fintype Direction := ⟨{.tx, .rx}, fun d => by cases d <;> decide⟩

/-- The directions in which the node uses the cell. -/
def Link.Options.directions (o : Link.Options) : Finset Direction := {d | o.has d}

/-- The directions of a lease that are stale in slot `now`. -/
def Planner.stale (p : Planner) (now : SlotNumber) (lease : Link.Lease) : Finset Direction :=
  {d | p.isStale now (lease.last d)}

/-- What is left of a link when the directions of a set are stale.  A link of which no direction is
live is taken out, also if it is used in neither; a link that may no longer transmit is shared no
more and is kept for no neighbour. -/
def Link.pruned (l : Link) (stale : Finset Direction) : Option Link :=
  let used := l.options.directions
  if stale = .univ ∨ used.Nonempty ∧ used ⊆ stale then none
  else if .tx ∈ used ∩ stale then
    some { l with options := l.options.without .txShared, kind := .normal, peer := .unbound }
  else if .rx ∈ used ∩ stale then
    some { l with options := l.options.without .rxOnly, kind := .normal }
  else some l

namespace Schedule

/-! ## Counting what changes -/

variable {s s' s'' : Schedule} {l : Link} {place place' : UInt16 → UInt16 → Prop}
  {rework rework' : Link → Option Link} {frame timeslot : UInt16}

/-- The places that show something else in `s'` than in `s`. -/
def changed (s s' : Schedule) : Set (UInt16 × UInt16) :=
  {place | s'.link? place.1 place.2 ≠ s.link? place.1 place.2}

/-- Nothing changes between a schedule and itself. -/
theorem changed_self (s : Schedule) : changed s s = ∅ :=
  Set.eq_empty_of_forall_notMem fun _ h => h rfl

/-- A work changes nothing but its places. -/
theorem Reworked.of_mem_changed (h : Reworked place rework s s') {g t : UInt16}
    (hgt : (g, t) ∈ changed s s') : place g t := by
  by_contra hplace
  exact hgt (h.link?_of_not hplace)

/-- The places that two works on places apart from one another change add up. -/
theorem ncard_changed_trans (h : Reworked place rework s s') (h' : Reworked place' rework' s' s'')
    (hapart : ∀ g t, place g t → ¬place' g t) :
    (changed s s'').ncard = (changed s s').ncard + (changed s' s'').ncard := by
  have hdisjoint : Disjoint (changed s s') (changed s' s'') := by
    rw [Set.disjoint_left]
    rintro ⟨g, t⟩ hfirst hsecond
    exact hapart g t (h.of_mem_changed hfirst) (h'.of_mem_changed hsecond)
  have hunion : changed s s'' = changed s s' ∪ changed s' s'' := by
    ext ⟨g, t⟩
    by_cases hplace : place g t
    · simp [changed, h'.link?_of_not (hapart g t hplace)]
    · simp [changed, h.link?_of_not hplace]
  rw [hunion, Set.ncard_union_eq hdisjoint]

/-- A work on one link changes its place, unless it leaves the link as it is. -/
theorem ncard_changed_at (h : Reworked (At frame timeslot) rework s s')
    (hl : s.link? frame timeslot = some l) :
    (changed s s').ncard = if rework l = some l then 0 else 1 := by
  have hlink : s'.link? frame timeslot = rework l := by
    rw [h.link?_of ⟨rfl, rfl⟩, hl, Option.bind_some]
  split
  · rename_i hkept
    rw [Set.ncard_eq_zero]
    refine Set.eq_empty_of_forall_notMem ?_
    rintro ⟨g, t⟩ hgt
    obtain ⟨rfl, rfl⟩ := h.of_mem_changed hgt
    exact hgt (hlink.trans (hkept.trans hl.symm))
  · rename_i hne
    rw [Set.ncard_eq_one]
    refine ⟨(frame, timeslot), Set.ext ?_⟩
    rintro ⟨g, t⟩
    rw [Set.mem_singleton_iff, Prod.mk.injEq]
    constructor
    · exact h.of_mem_changed
    · rintro ⟨rfl, rfl⟩ heq
      exact hne (hlink.symm.trans (heq.trans hl))

/-- The places that have a link in `s` and none in `s'`. -/
def vacated (s s' : Schedule) : Set (UInt16 × UInt16) :=
  {place | (s.link? place.1 place.2).isSome ∧ s'.link? place.1 place.2 = none}

/-- The count of links is the number of places that show one. -/
theorem WellFormed.linkCount_eq_ncard (hs : s.WellFormed) :
    s.linkCount = {place : UInt16 × UInt16 | (s.link? place.1 place.2).isSome}.ncard := by
  rw [← hs.linkCount_eq_cellMap, CellMap.linkCount]
  simp only [cellMap, Option.isSome_map]

/-- A link that is there after a work is what the work made of one, or it was there. -/
theorem Reworked.exists_link? (h : Reworked place rework s s') {g t : UInt16} {l' : Link}
    (hl' : s'.link? g t = some l') :
    ∃ l, s.link? g t = some l ∧ (rework l = some l' ∨ l' = l) := by
  by_cases hplace : place g t
  · rw [h.link?_of hplace] at hl'
    obtain ⟨l, hl, hrework⟩ := Option.bind_eq_some_iff.1 hl'
    exact ⟨l, hl, .inl hrework⟩
  · rw [h.link?_of_not hplace] at hl'
    exact ⟨l', hl', .inr rfl⟩

/-- The number of links goes down by that of the links that a work takes out. -/
theorem linkCount_add_ncard_vacated (hs : s.WellFormed) (h : Reworked place rework s s') :
    s'.linkCount + (vacated s s').ncard = s.linkCount := by
  rw [hs.linkCount_eq_ncard, h.wellFormed.linkCount_eq_ncard, Nat.add_comm]
  have hsubset : {place : UInt16 × UInt16 | (s'.link? place.1 place.2).isSome} ⊆
      {place | (s.link? place.1 place.2).isSome} := by
    rintro ⟨g, t⟩ hsome
    obtain ⟨l', hl'⟩ := Option.isSome_iff_exists.1 hsome
    obtain ⟨l, hl, -⟩ := h.exists_link? hl'
    exact Option.isSome_iff_exists.2 ⟨l, hl⟩
  rw [← Set.ncard_sdiff_add_ncard_of_subset hsubset]
  congr 2
  ext place
  simp [vacated]

/-- A step on a schedule and a count does a work on places, and counts those that it changes. -/
structure Tallied (place : UInt16 → UInt16 → Prop) (rework : Link → Option Link)
    (b b' : Schedule × Nat) : Prop where
  /-- The links at the places are reworked. -/
  reworked : Reworked place rework b.1 b'.1
  /-- The count goes up by the number of places that change. -/
  count_eq : b'.2 = b.2 + (changed b.1 b'.1).ncard

/-- A fold whose steps act on places apart from one another, and count what they change, counts all
that it changes. -/
theorem foldl_tallied {ι : Type} {act : Schedule × Nat → ι → Schedule × Nat}
    (place : ι → UInt16 → UInt16 → Prop) {xs : List ι}
    (hapart : xs.Pairwise fun x y => ∀ g t, place x g t → ¬place y g t) (s : Schedule)
    (hact : ∀ x ∈ xs, ∀ b : Schedule × Nat, b.1.WellFormed →
      (∀ g t, place x g t → b.1.link? g t = s.link? g t) →
      Tallied (place x) rework b (act b x))
    (b : Schedule × Nat) (hb : b.1.WellFormed)
    (hview : ∀ x ∈ xs, ∀ g t, place x g t → b.1.link? g t = s.link? g t) :
    Tallied (fun g t => ∃ x ∈ xs, place x g t) rework b (xs.foldl act b) := by
  refine ⟨foldl_reworked Prod.fst place hapart s
    (fun x hx b hb hview => (hact x hx b hb hview).reworked) b hb hview, ?_⟩
  induction xs generalizing b with
  | nil => simp [changed_self]
  | cons x xs ih =>
    obtain ⟨hx, hapart⟩ := List.pairwise_cons.1 hapart
    have hfirst := hact x (List.mem_cons_self ..) b hb (hview x (List.mem_cons_self ..))
    have hact : ∀ y ∈ xs, _ := fun y hy => hact y (List.mem_cons_of_mem _ hy)
    -- what the first step does is apart from the places of the later ones
    have hrest : ∀ y ∈ xs, ∀ g t, place y g t → (act b x).1.link? g t = s.link? g t := by
      intro y hy g t hplace
      rw [hfirst.reworked.link?_of_not fun hplace' => hx y hy g t hplace' hplace]
      exact hview y (List.mem_cons_of_mem _ hy) g t hplace
    have hlater := foldl_reworked Prod.fst place hapart s
      (fun y hy b hb hview => (hact y hy b hb hview).reworked) (act b x)
      hfirst.reworked.wellFormed hrest
    have hcount := ih hapart hact (act b x) hfirst.reworked.wellFormed hrest
    have hsum := ncard_changed_trans hfirst.reworked hlater fun g t hplace ⟨y, hy, hplace'⟩ =>
      hx y hy g t hplace hplace'
    calc ((x :: xs).foldl act b).2
        = (act b x).2 + (changed (act b x).1 (xs.foldl act (act b x)).1).ncard := hcount
      _ = b.2 + (changed b.1 ((x :: xs).foldl act b).1).ncard := by
        rw [hfirst.count_eq, Nat.add_assoc, ← hsum]
        rfl

end Schedule

namespace Planner

open Schedule

variable {p : Planner} {now : SlotNumber} {s : Schedule} {l : Link} {lease : Link.Lease}
  {o : Link.Options}

/-! ## What verdicts leave -/

/-- There are two directions. -/
theorem forall_direction {P : Direction → Prop} : (∀ d, P d) ↔ P .tx ∧ P .rx := by
  constructor
  · intro h
    exact ⟨h .tx, h .rx⟩
  · rintro ⟨htx, hrx⟩ (_ | _)
    · exact htx
    · exact hrx

/-- A direction is used if the options have it. -/
theorem mem_directions {d : Direction} : d ∈ o.directions ↔ o.has d = true := by
  simp [Link.Options.directions]

/-- A direction is stale if its last use is. -/
theorem mem_stale {d : Direction} :
    d ∈ p.stale now lease ↔ p.isStale now (lease.last d) = true := by
  simp [stale]

/-- All is stale when both last uses are. -/
theorem stale_eq_univ_iff : p.stale now lease = .univ ↔
    p.isStale now lease.lastTx = true ∧ p.isStale now lease.lastRx = true := by
  rw [Finset.eq_univ_iff_forall, forall_direction, mem_stale, mem_stale]
  rfl

/-- A cell is used if it is used in either direction. -/
theorem directions_nonempty_iff : o.directions.Nonempty ↔ o.tx = true ∨ o.rx = true := by
  rw [Finset.nonempty_iff_ne_empty, Ne, Finset.eq_empty_iff_forall_notMem, forall_direction,
    mem_directions, mem_directions, not_and_or, not_not, not_not]
  rfl

/-- No direction in use is live if each that is in use is stale. -/
theorem directions_subset_stale_iff : o.directions ⊆ p.stale now lease ↔
    (o.tx = true → p.isStale now lease.lastTx = true) ∧
      (o.rx = true → p.isStale now lease.lastRx = true) := by
  simp only [Finset.subset_iff, forall_direction, mem_directions, mem_stale]
  rfl

/-- The verdict on a leased link leaves what is left of it without its stale directions. -/
theorem leave_verdict (hlease : l.lease = some lease) :
    (p.verdict now l).leave l = l.pruned (p.stale now lease) := by
  unfold verdict Link.pruned
  simp only [hlease, stale_eq_univ_iff, directions_nonempty_iff, directions_subset_stale_iff,
    Finset.mem_inter, mem_directions, mem_stale, Link.Options.has, Link.Lease.last]
  rcases p.isStale now lease.lastTx with _ | _ <;> rcases p.isStale now lease.lastRx with _ | _
  · rcases htx : l.options.tx with _ | _ <;> simp [Verdict.leave]
  · rcases htx : l.options.tx with _ | _ <;> rcases hrx : l.options.rx with _ | _ <;>
      simp [htx, hrx, hlease, Verdict.leave, reduceTo, Link.Options.without, Link.Options.rxOnly]
  · rcases htx : l.options.tx with _ | _ <;> rcases hrx : l.options.rx with _ | _ <;>
      simp [htx, hrx, hlease, Verdict.leave, reduceTo, Link.Options.without, Link.Options.txShared]
  · simp [Verdict.leave]

/-- A link that is reduced keeps the options that are left to it. -/
theorem options_eq_of_reduceTo {options options' : Link.Options} {peer peer' : Link.Peer}
    (h : reduceTo options peer = .reduce options' peer') : options = options' := by
  unfold reduceTo at h
  split at h
  · cases h
    rfl
  · cases h

/-- A link is not reduced to the options it has. -/
theorem verdict_ne_reduce (p : Planner) (now : SlotNumber) (l : Link) (peer : Link.Peer) :
    p.verdict now l ≠ .reduce l.options peer := by
  intro h
  unfold verdict at h
  split at h
  · cases h
  · split at h
    · cases h
    · split at h
      · rename_i htx
        have heq := congrArg (·.tx) (options_eq_of_reduceTo h)
        simp [Link.Options.without, Link.Options.txShared, htx] at heq
      · cases h
    · split at h
      · rename_i hrx
        have heq := congrArg (·.rx) (options_eq_of_reduceTo h)
        simp [Link.Options.without, Link.Options.rxOnly, hrx] at heq
      · cases h
    · cases h

/-- A verdict that leaves the link as it is is to keep it. -/
theorem verdict_eq_keep (h : (p.verdict now l).leave l = some l) : p.verdict now l = .keep := by
  rcases hv : p.verdict now l with _ | _ | ⟨options, peer⟩
  · rfl
  · rw [hv] at h
    cases h
  · rw [hv] at h
    have hoptions : options = l.options := congrArg (·.options) (Option.some.inj h)
    rw [hoptions] at hv
    exact absurd hv (p.verdict_ne_reduce now l peer)

/-! ## Counting verdicts -/

/-- A verdict that is carried out counts, unless it is to keep the link. -/
theorem carryOut_tallied (hs : s.WellFormed) {frame : UInt16}
    (hl : s.link? frame l.timeslot = some l) {v : Verdict} (hv : v.leave l = some l → v = .keep)
    (count : Nat) :
    Tallied (At frame l.timeslot) (fun _ => v.leave l) (s, count) (carryOut frame l v s count) := by
  have hwork := carryOut_reworked hs hl v count
  refine ⟨hwork, ?_⟩
  rw [ncard_changed_at hwork hl]
  rcases v with _ | _ | ⟨options, peer⟩
  · simp [carryOut, Verdict.leave]
  · obtain ⟨s', hremove, -⟩ := reworked_removeLinkAt hs hl
    simp [carryOut_remove, hremove, settle, tally, Verdict.leave]
  · obtain ⟨s', hput, -⟩ := reworked_putLink hs hl ⟨options, .normal, peer, l.channelOffset⟩
    have hne : (Verdict.reduce options peer).leave l ≠ some l := by
      intro heq
      cases hv heq
    rw [if_neg hne]
    simp [carryOut_reduce, hput, settle, tally]

/-- A sweep of one slotframe counts the places that it changes. -/
theorem sweepFrame_tallied (hs : s.WellFormed) (count : Nat) (frame : UInt16) :
    Tallied (fun g _ => g = frame) (fun l => (p.verdict now l).leave l) (s, count)
      (p.sweepFrame now s count frame) := by
  refine ⟨sweepFrame_reworked hs count frame, ?_⟩
  unfold sweepFrame
  rcases hf : s.frame? frame with _ | f
  · simp [changed_self]
  · have hact : ∀ l ∈ f.links.values, ∀ b : Schedule × Nat, b.1.WellFormed →
        (∀ g t, At frame l.timeslot g t → b.1.link? g t = s.link? g t) →
        Tallied (At frame l.timeslot) (fun l => (p.verdict now l).leave l) b
          (carryOut frame l (p.verdict now l) b.1 b.2) := by
      intro l hl b hb hview
      have hlink : b.1.link? frame l.timeslot = some l :=
        (hview _ _ ⟨rfl, rfl⟩).trans (hs.link?_of_mem_values hf hl)
      have hwork := carryOut_tallied hb hlink (@verdict_eq_keep p now l) b.2
      exact ⟨hwork.reworked.congr_at hlink rfl, hwork.count_eq⟩
    have hapart : f.links.values.Pairwise fun l l' =>
        ∀ g t, At frame l.timeslot g t → ¬At frame l'.timeslot g t :=
      (hs.pairwise_timeslot hf).imp fun hne g t hplace hplace' =>
        hne (hplace.2.symm.trans hplace'.2)
    exact (foldl_tallied (fun l : Link => At frame l.timeslot) hapart s hact (s, count) hs
      fun _ _ _ _ _ => rfl).count_eq

/-- The count of a sweep is that of the places that it changes. -/
theorem count_sweep (hs : s.WellFormed) :
    (p.sweep now s).2 = (changed s (p.sweep now s).1).ncard := by
  have hapart : p.plan.unicastFrames.Pairwise fun f f' =>
      ∀ g (_ : UInt16), g = f → ¬g = f' :=
    (nodup_unicastFrames p.plan).imp fun hne g _ hg hg' => hne (hg.symm.trans hg')
  have hact (b : Schedule × Nat) (frame : UInt16) (hb : b.1.WellFormed) :
      Tallied (fun g _ => g = frame) (fun l => (p.verdict now l).leave l) b
        (p.sweepFrame now b.1 b.2 frame) := sweepFrame_tallied hb b.2 frame
  have hfold := foldl_tallied (fun f g _ => g = f) hapart s (fun f _ b hb _ => hact b f hb) (s, 0)
    hs fun _ _ _ _ _ => rfl
  rw [← Nat.zero_add (changed s _).ncard]
  exact hfold.count_eq

/-- **What a sweep does, link by link.**  A sweep of a well-formed schedule, however full it is,
leaves of each lent link of the unicast slotframes what `Link.pruned` says of its directions that
are stale, and of all others what they were.  A link that is left keeps its handle, its place, its
channel offset and its lease.  The slotframes are the same and no handle is given; the number of
links goes down by that of the links taken out, and the count is that of the links that changed. -/
theorem sweep_pointwise (hs : s.WellFormed) (p : Planner) (now : SlotNumber) :
    let s' := (p.sweep now s).1
    (∀ g ∈ p.plan.unicastFrames, ∀ t l lease, s.link? g t = some l → l.lease = some lease →
      s'.link? g t = l.pruned (p.stale now lease)) ∧
    (∀ g t, (∀ l, s.link? g t = some l → l.lease.isSome → g ∉ p.plan.unicastFrames) →
      s'.link? g t = s.link? g t) ∧
    (∀ g t l', s'.link? g t = some l' → ∃ l, s.link? g t = some l ∧ l'.handle = l.handle ∧
      l'.frame = l.frame ∧ l'.timeslot = l.timeslot ∧ l'.channelOffset = l.channelOffset ∧
      l'.lease = l.lease) ∧
    s'.WellFormed ∧ SameFrames s s' ∧ s'.nextHandle = s.nextHandle ∧
    s'.linkCount + (vacated s s').ncard = s.linkCount ∧
    (p.sweep now s).2 = (changed s s').ncard := by
  intro s'
  have hwork : Reworked _ _ s s' := @sweep_reworked p now s hs
  refine ⟨?_, ?_, ?_, hwork.wellFormed, hwork.sameFrames, hwork.nextHandle_eq,
    linkCount_add_ncard_vacated hs hwork, count_sweep hs⟩
  · intro g hg t l lease hl hlease
    rw [hwork.link?_of hg, hl, Option.bind_some, leave_verdict hlease]
  · intro g t hspared
    by_cases hg : g ∈ p.plan.unicastFrames
    · rw [hwork.link?_of hg]
      rcases hl : s.link? g t with _ | l
      · rfl
      · refine leave_of_unleased (Option.not_isSome_iff_eq_none.1 fun hlease => ?_)
        exact hspared l hl hlease hg
    · exact hwork.link?_of_not hg
  · intro g t l' hl'
    obtain ⟨l, hl, hleave | rfl⟩ := hwork.exists_link? hl'
    · obtain ⟨options, kind, peer, rfl⟩ := eq_of_leave hleave
      exact ⟨l, hl, rfl, rfl, rfl, rfl, rfl⟩
    · exact ⟨l', hl, rfl, rfl, rfl, rfl, rfl⟩

/-! A schedule that is full: one lent link on which the node no longer transmits, and one that is of
no more use. -/

/-- The schedule. -/
def fullSchedule : Schedule :=
  ((empty 1 2).run [.addFrame 2 5, .putLink 2 0 ⟨.all, .normal, .broadcast, 2⟩,
    .setLease 2 0 (some ⟨.ofNat 0, .ofNat 9⟩), .putLink 2 1 ⟨.rxOnly, .normal, .unbound, 2⟩,
    .setLease 2 1 (some ⟨.ofNat 0, .ofNat 1⟩)]).1

/-- The schedule is well-formed, as it is reached by operations. -/
theorem wellFormed_fullSchedule : fullSchedule.WellFormed := (WellFormed.empty 1 2).run _

/-- A planner whose leases last for eight slots. -/
def briefPlanner : Planner := ⟨CellPlan.standard, 0, 8⟩

/-- A sweep leaves the first link to listen, kept for nobody, and takes out the second. -/
theorem sweep_pointwise_fullSchedule :
    let s' := (briefPlanner.sweep (.ofNat 10) fullSchedule).1
    fullSchedule.linkCount = fullSchedule.maxLinks ∧
      (∃ l, s'.link? 2 0 = some l ∧ l.options = .rxOnly ∧ l.peer = .unbound) ∧
      s'.link? 2 1 = none ∧ (changed fullSchedule s').ncard = 2 := by
  obtain ⟨hpruned, -, -, -, -, -, -, hcount⟩ :=
    sweep_pointwise wellFormed_fullSchedule briefPlanner (.ofNat 10)
  refine ⟨by decide +kernel, ?_, ?_, ?_⟩
  · rw [hpruned 2 (by decide) 0 ⟨⟨.all, .normal, .broadcast, 2⟩, 0, 2, 0, some ⟨.ofNat 0, .ofNat 9⟩⟩
      _ (by decide +kernel) rfl]
    exact ⟨_, rfl, by decide +kernel, by decide +kernel⟩
  · rw [hpruned 2 (by decide) 1
      ⟨⟨.rxOnly, .normal, .unbound, 2⟩, 1, 2, 1, some ⟨.ofNat 0, .ofNat 1⟩⟩ _ (by decide +kernel)
      rfl]
    decide +kernel
  · rw [← hcount]
    decide +kernel

end Planner

end SlottedMesh
