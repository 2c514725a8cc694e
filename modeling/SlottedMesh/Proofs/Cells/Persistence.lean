import SlottedMesh.Proofs.Cells.Orderly
import SlottedMesh.Proofs.Time.Elapsed

/-!
# Directions that stay

A direction of a link stays while its use lies in a window that is not longer than the lifetime of
leases.  `Kept p t direction o` says that `o` is a link that carries the direction and that its
lease, if it has one, was stamped in the lifetime after `t`.  A touch in a slot of that lifetime
leaves it so (`Touch.kept`), and so does every run of events in such slots (`kept_run`): joins stamp
the lease again, and a sweep sees that the direction is live, wherever the slot numbers wrap.
-/

namespace SlottedMesh.Planner

variable {p : Planner} {d : Directory} {t now last : SlotNumber} {direction : Direction}

/-- The link carries the direction, and if it is only lent, the direction was last used in the
lifetime of leases after `t`. -/
def Kept (p : Planner) (t : SlotNumber) (direction : Direction) (o : Option Link) : Prop :=
  ∃ l, o = some l ∧ l.options.has direction = true ∧
    ∀ lease ∈ l.lease, (lease.last direction).elapsed t ≤ p.lifetime.toNat

/-- The events happen in the lifetime of leases after `t`. -/
def Within (p : Planner) (t : SlotNumber) (es : List Event) : Prop :=
  ∀ e ∈ es, ∀ now ∈ e.slot?, now.elapsed t ≤ p.lifetime.toNat

/-- In the lifetime of leases after `t`, nothing that was used in it is stale. -/
theorem isStale_eq_false (hbound : p.lifetime.toNat < 2 ^ 31)
    (hnow : now.elapsed t ≤ p.lifetime.toNat) (hlast : last.elapsed t ≤ p.lifetime.toNat) :
    p.isStale now last = false := by
  unfold isStale
  rw [SlotNumber.since_eq_sub (Nat.lt_of_le_of_lt hnow hbound) (Nat.lt_of_le_of_lt hlast hbound)]
  exact decide_eq_false (by omega)

/-- A touch in the lifetime after `t` leaves the direction. -/
theorem Touch.kept (hbound : p.lifetime.toNat < 2 ^ 31) {slot? : Option SlotNumber}
    (hslot : ∀ now ∈ slot?, now.elapsed t ≤ p.lifetime.toNat) {g u : UInt16} {o o' : Option Link}
    (h : p.Touch slot? g u o o') (hg : g ∈ p.plan.unicastFrames) (ho : p.Kept t direction o) :
    p.Kept t direction o' := by
  obtain ⟨l, rfl, hhas, hlease⟩ := ho
  cases h with
  | judged hnow hframe =>
    cases hl : l.lease with
    | none => exact ⟨l, leave_of_unleased hl, hhas, hlease⟩
    | some lease =>
      have hlive := isStale_eq_false hbound (hslot _ hnow) (hlease lease hl)
      obtain ⟨l', hleave, hhas'⟩ := leave_of_live hl hhas hlive
      refine ⟨l', hleave, hhas', ?_⟩
      rw [lease_of_leave hleave]
      exact hlease
  | @renewed now _ hnow hframe =>
    refine ⟨l.renewed now, rfl, hhas, fun lease hl => ?_⟩
    obtain ⟨_, _, rfl⟩ := Option.map_eq_some_iff.1 hl
    rw [Link.Lease.last_fresh]
    exact hslot now hnow
  | @used now _ cell use handle hnow hu hcell hframe htimeslot =>
    refine ⟨_, rfl, ?_, fun lease hl => ?_⟩
    · rw [has_merged, Option.any_some, hhas, Bool.true_or]
    · obtain ⟨lease₀, hlease₀, rfl⟩ := Option.map_eq_some_iff.1 hl
      by_cases hd : direction = use.direction
      · rw [hd, last_stamp_self]
        exact hslot now hnow
      · rw [last_stamp_of_ne lease₀ hd]
        exact hlease lease₀ hlease₀
  | muted hframe hown haway => exact absurd hframe (CellPlan.ne_beaconFrame hg)
  | heard hframe hown haway => exact absurd hframe (CellPlan.ne_beaconFrame hg)

/-- A run in the lifetime after `t` leaves the direction. -/
theorem kept_run (hbound : p.lifetime.toNat < 2 ^ 31) {g u : UInt16} (hg : g ∈ p.plan.unicastFrames)
    {s : Schedule} (hs : s.WellFormed) (hkept : p.Kept t direction (s.link? g u)) {es : List Event}
    (hes : p.Within t es) : p.Kept t direction ((p.run d s es).link? g u) := by
  induction es generalizing s with
  | nil => exact hkept
  | cons e es ih =>
    obtain ⟨he, hes⟩ := List.forall_mem_cons.1 hes
    have htouches := touching_edit (p := p) (d := d) e s hs
    exact ih htouches.wellFormed
      (htouches.preserves (fun _ _ htouch => htouch.kept hbound he hg) hkept) hes

end SlottedMesh.Planner
