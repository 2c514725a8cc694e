import SlottedMesh.Proofs.Cells.Pruning
import SlottedMesh.Proofs.Schedule.Extensional
import SlottedMesh.Proofs.Time.Elapsed

/-!
# Sweeps one after another

A sweep may leave a link that the next one takes out, or take one direction from it and leave the
other to the next.  What comes of the links in the end is what the last sweep alone would have made
of them, since what was stale before is stale still.

* `Link.pruned_bind_pruned` says so for one link, by what is stale the first time and the second.
* `stale_subset_stale`: with time, nothing that is stale becomes live again.
* `sweep_then_sweep` is the main statement.
-/

namespace SlottedMesh

open Planner

variable {l l' : Link} {stale stale' : Finset Direction}

/-! ## One link -/

namespace Link

/-- Options that are taken away take their directions with them. -/
theorem Options.directions_without (o x : Options) :
    (o.without x).directions = o.directions \ x.directions := by
  ext d
  rw [Finset.mem_sdiff, mem_directions, mem_directions, mem_directions]
  cases d <;> simp [Options.has, Options.without]

/-- If one direction is stale but not both, it is the only one. -/
theorem eq_singleton_of_stale : ∀ {stale : Finset Direction} {d : Direction},
    stale ≠ .univ → d ∈ stale → stale = {d} := by
  decide

/-- Where everything is stale, nothing is left. -/
theorem pruned_univ (l : Link) : l.pruned .univ = none := by
  unfold pruned
  exact if_pos (.inl rfl)

/-- A link that is used in no stale direction is left as it is, unless both are stale. -/
theorem pruned_of_disjoint (hstale : stale ≠ .univ) (h : Disjoint l.options.directions stale) :
    l.pruned stale = some l := by
  have hinter : l.options.directions ∩ stale = ∅ := Finset.disjoint_iff_inter_eq_empty.1 h
  unfold pruned
  simp only [hstale, hinter, Finset.notMem_empty, if_false, false_or]
  rw [if_neg]
  rintro ⟨⟨d, hd⟩, hsubset⟩
  exact Finset.disjoint_left.1 h hd (hsubset hd)

/-- Where nothing is stale, all is left. -/
theorem pruned_empty (l : Link) : l.pruned ∅ = some l :=
  pruned_of_disjoint (by decide) (Finset.disjoint_empty_right _)

/-- What is left, by the direction that is taken from the link. -/
theorem pruned_cases (h : l.pruned stale = some l') :
    stale ≠ .univ ∧
      (.tx ∈ stale ∧ l' =
        { l with options := l.options.without .txShared, kind := .normal, peer := .unbound } ∨
      .rx ∈ stale ∧ l' = { l with options := l.options.without .rxOnly, kind := .normal } ∨
      Disjoint l.options.directions stale ∧ l' = l) := by
  simp only [pruned] at h
  split at h
  · cases h
  · rename_i hsome
    refine ⟨fun heq => hsome (.inl heq), ?_⟩
    split at h
    · rename_i htx
      exact .inl ⟨(Finset.mem_inter.1 htx).2, (Option.some.inj h).symm⟩
    · rename_i htx
      split at h
      · rename_i hrx
        exact .inr (.inl ⟨(Finset.mem_inter.1 hrx).2, (Option.some.inj h).symm⟩)
      · rename_i hrx
        refine .inr (.inr ⟨?_, (Option.some.inj h).symm⟩)
        rw [Finset.disjoint_iff_inter_eq_empty, Finset.eq_empty_iff_forall_notMem, forall_direction]
        exact ⟨htx, hrx⟩

/-- What is left is used in no stale direction. -/
theorem disjoint_of_pruned (h : l.pruned stale = some l') :
    Disjoint l'.options.directions stale := by
  obtain ⟨hstale, ⟨htx, rfl⟩ | ⟨hrx, rfl⟩ | ⟨hdisjoint, rfl⟩⟩ := pruned_cases h
  · rw [Options.directions_without, eq_singleton_of_stale hstale htx]
    exact Finset.sdiff_disjoint
  · rw [Options.directions_without, eq_singleton_of_stale hstale hrx]
    exact Finset.sdiff_disjoint
  · exact hdisjoint

/-- Of two sets of which one is part of the other, the first is empty, or they are equal, or the
second has both directions. -/
theorem stale_cases : ∀ {stale stale' : Finset Direction}, stale ⊆ stale' →
    stale = ∅ ∨ stale = stale' ∨ stale' = .univ := by
  decide

/-- What is left in two steps, where the second time as much is stale as the first or more, is left
in one. -/
theorem pruned_bind_pruned (l : Link) (h : stale ⊆ stale') :
    (l.pruned stale).bind (·.pruned stale') = l.pruned stale' := by
  obtain rfl | rfl | rfl := stale_cases h
  · rw [pruned_empty, Option.bind_some]
  · rcases hl' : l.pruned stale with _ | l'
    · rfl
    · exact pruned_of_disjoint (pruned_cases hl').1 (disjoint_of_pruned hl')
  · simp only [pruned_univ, Option.bind_fun_none]

end Link

/-! ## All links -/

namespace Planner

open Schedule

variable {p : Planner} {s : Schedule} {now now' : SlotNumber} {lease : Link.Lease}

/-- With time, nothing that is stale becomes live again. -/
theorem stale_subset_stale (h : ∀ d, now.elapsed (lease.last d) ≤ now'.elapsed (lease.last d) ∧
    now'.elapsed (lease.last d) < 2 ^ 31) : p.stale now lease ⊆ p.stale now' lease := by
  intro d hd
  obtain ⟨hle, hlt⟩ := h d
  have hsince := SlotNumber.since_eq_elapsed (Nat.lt_of_le_of_lt hle hlt)
  have hsince' := SlotNumber.since_eq_elapsed hlt
  simp only [mem_stale, isStale, decide_eq_true_eq] at hd ⊢
  omega

/-- What two verdicts leave of a link, where nothing becomes live again, the second leaves alone. -/
theorem leave_bind_leave (l : Link)
    (h : ∀ lease, l.lease = some lease → p.stale now lease ⊆ p.stale now' lease) :
    ((p.verdict now l).leave l).bind (fun l => (p.verdict now' l).leave l) =
      (p.verdict now' l).leave l := by
  rcases hlease : l.lease with _ | lease
  · rw [leave_of_unleased hlease, Option.bind_some]
  · rw [@leave_verdict p now' l lease hlease, ← Link.pruned_bind_pruned l (h lease hlease),
      ← leave_verdict hlease]
    refine Option.bind_congr fun l' hl' => ?_
    rw [leave_verdict ((lease_of_leave hl').trans hlease)]

/-- A sweep after another leaves what it would leave alone, if nothing becomes live again. -/
theorem sweep_after_sweep (hs : s.WellFormed)
    (h : ∀ g ∈ p.plan.unicastFrames, ∀ t l lease, s.link? g t = some l → l.lease = some lease →
      p.stale now lease ⊆ p.stale now' lease) :
    (p.sweep now' (p.sweep now s).1).1 = (p.sweep now' s).1 := by
  have hfirst := @sweep_reworked p now s hs
  have hboth := hfirst.comp (@sweep_reworked p now' _ hfirst.wellFormed)
  refine (hboth.congr_rework fun g t l hg hl => ?_).eq (sweep_reworked hs)
  exact leave_bind_leave l fun lease => h g hg t l lease hl

/-- **Sweeps compose.**  If in slot `t₁` no use of the cells that are lent in the unicast slotframes
lies in the future, and in slot `t₂` each lies as far back or farther but fewer than `2 ^ 31` slots,
then a sweep in `t₁` and one in `t₂` leave what the one in `t₂` alone leaves.  Whatever the uses, a
second sweep in the same slot changes nothing and counts nothing. -/
theorem sweep_then_sweep (hs : s.WellFormed) (p : Planner) :
    (∀ t₁ t₂ : SlotNumber,
      (∀ g ∈ p.plan.unicastFrames, ∀ t l lease, s.link? g t = some l → l.lease = some lease →
        ∀ d, t₁.elapsed (lease.last d) ≤ t₂.elapsed (lease.last d) ∧
          t₂.elapsed (lease.last d) < 2 ^ 31) →
      (p.sweep t₂ (p.sweep t₁ s).1).1 = (p.sweep t₂ s).1) ∧
    ∀ now, p.sweep now (p.sweep now s).1 = ((p.sweep now s).1, 0) := by
  refine ⟨fun t₁ t₂ h => sweep_after_sweep hs fun g hg t l lease hl hlease =>
    stale_subset_stale (h g hg t l lease hl hlease), fun now => ?_⟩
  have hswept := (@sweep_reworked p now s hs).wellFormed
  have hsame : (p.sweep now (p.sweep now s).1).1 = (p.sweep now s).1 :=
    sweep_after_sweep hs fun _ _ _ _ _ _ _ => Finset.Subset.refl _
  have hcount : (p.sweep now (p.sweep now s).1).2 = 0 := by
    rw [count_sweep hswept, hsame, changed_self, Set.ncard_empty]
  exact Prod.ext hsame hcount

/-- One link of the full schedule is first reduced and then taken out, as it would be at once. -/
theorem sweep_then_sweep_fullSchedule :
    let s₁ := (briefPlanner.sweep (.ofNat 9) fullSchedule).1
    let s₂ := (briefPlanner.sweep (.ofNat 18) s₁).1
    (s₁.link? 2 0).map (·.options) = some .rxOnly ∧ s₂.link? 2 0 = none ∧
      s₂ = (briefPlanner.sweep (.ofNat 18) fullSchedule).1 ∧
      briefPlanner.sweep (.ofNat 18) s₂ = (s₂, 0) := by
  have huses : ∀ l ∈ fullSchedule.links, ∀ lease ∈ l.lease, ∀ d,
      (SlotNumber.ofNat 9).elapsed (lease.last d) ≤ (SlotNumber.ofNat 18).elapsed (lease.last d) ∧
        (SlotNumber.ofNat 18).elapsed (lease.last d) < 2 ^ 31 := by
    decide +kernel
  obtain ⟨hcompose, hagain⟩ := sweep_then_sweep wellFormed_fullSchedule briefPlanner
  have hs₂ := hcompose (.ofNat 9) (.ofNat 18) fun g _ t l lease hl hlease =>
    huses l (mem_links hl) lease hlease
  refine ⟨by decide +kernel, by decide +kernel, hs₂, ?_⟩
  rw [hs₂]
  exact hagain (.ofNat 18)

end Planner

end SlottedMesh
