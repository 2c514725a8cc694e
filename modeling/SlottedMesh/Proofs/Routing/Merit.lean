import Mathlib.Data.Bool.Basic
import Mathlib.Data.Prod.Lex
import SlottedMesh.Proofs.Routing.Ties
import SlottedMesh.Routing.Dag

/-!
# The best of several graphs

Graphs are compared two by two.  The comparison is one of a single quantity, the merit of a graph
(`isBetterThan_iff`): whether it is grounded, then its preference, then its rank, of which the lower
is the better.  Merits are a linear order, and therefore the best graph of a list can be found by
comparing each in turn with the best so far, whatever the order of the list: `foldl_better` says
that it has the greatest merit and that of several it is the last.
-/

namespace SlottedMesh.Dag

variable {α : Type} {d e : Dag}

/-- What graphs are compared by, the most important part first. -/
def merit (d : Dag) : Bool ×ₗ Nat ×ₗ Natᵒᵈ :=
  toLex (d.grounded, toLex (d.preference.toNat, OrderDual.toDual d.rank.toNat))

/-- Merits are compared by being grounded, then by preference, then by rank, where the smaller is
better. -/
theorem merit_lt_iff : e.merit < d.merit ↔
    e.grounded < d.grounded ∨ e.grounded = d.grounded ∧
      (e.preference < d.preference ∨ e.preference = d.preference ∧ d.rank < e.rank) := by
  simp only [merit, Prod.Lex.toLex_lt_toLex, OrderDual.toDual_lt_toDual, UInt8.lt_iff_toNat_lt,
    UInt16.lt_iff_toNat_lt, UInt8.toNat_inj]

/-- The better graph is the one of greater merit. -/
theorem isBetterThan_iff : d.isBetterThan e = true ↔ e.merit < d.merit := by
  rw [merit_lt_iff, isBetterThan]
  by_cases hgrounded : d.grounded = e.grounded
  · rw [if_neg (not_not.2 hgrounded)]
    by_cases hpreference : d.preference = e.preference
    · rw [if_neg (not_not.2 hpreference)]
      simp [hgrounded, hpreference]
    · rw [if_pos hpreference]
      simp [hgrounded, Ne.symm hpreference]
  · rw [if_pos hgrounded]
    revert hgrounded
    cases d.grounded <;> cases e.grounded <;> simp

/-- The better of two candidates that stand for graphs, the second one if they are equally good. -/
def better (dag : α → Dag) (a b : α) : α := if (dag a).isBetterThan (dag b) then a else b

/-- The better of two carries the better graph. -/
theorem dag_better (dag : α → Dag) (a b : α) : dag (better dag a b) = best (dag a) (dag b) :=
  apply_ite dag _ _ _

/-- What the best candidate stands for is the best of the graphs. -/
theorem dag_foldl_better (dag : α → Dag) (a : α) (as : List α) :
    dag (as.foldl (better dag) a) = (as.map dag).foldl best (dag a) := by
  induction as generalizing a with
  | nil => rfl
  | cons b bs ih => rw [List.foldl_cons, ih, dag_better dag, List.map_cons, List.foldl_cons]

/-- Of the candidates of the greatest merit the last one is kept. -/
theorem latest_foldl_better (dag : α → Dag) (a : α) (as : List α) :
    Latest (fun _ => True) (fun c => OrderDual.toDual (dag c).merit) (a :: as)
      (as.foldl (better dag) a) := by
  refine latest_foldl (fun x y => ?_) a as
  exact if_congr (isBetterThan_iff.trans OrderDual.toDual_lt_toDual.symm) rfl rfl

/-- **The best of a list.**  Of the graphs that the candidates of a list stand for, comparing each
with the best so far leaves the best.  It belongs to a candidate of the list, none of which is of
greater merit, and those that come later in the list are of less.  Its merit does not depend on the
order of the list. -/
theorem foldl_better (dag : α → Dag) (a : α) (as : List α) :
    (as.map dag).foldl best (dag a) = dag (as.foldl (better dag) a) ∧
    as.foldl (better dag) a ∈ a :: as ∧
    (∀ c ∈ a :: as, (dag c).merit ≤ (dag (as.foldl (better dag) a)).merit) ∧
    (∀ b bs, (b :: bs).Perm (a :: as) →
      (dag (bs.foldl (better dag) b)).merit = (dag (as.foldl (better dag) a)).merit) ∧
    ∃ before after, a :: as = before ++ as.foldl (better dag) a :: after ∧
      ∀ c ∈ after, (dag c).merit < (dag (as.foldl (better dag) a)).merit := by
  have hbest := latest_foldl_better dag a as
  refine ⟨(dag_foldl_better dag a as).symm, hbest.mem, fun c hc => hbest.key_le hc trivial,
    fun b bs hperm => ?_, ?_⟩
  · have hother := latest_foldl_better dag b bs
    exact le_antisymm (hbest.key_le (hperm.mem_iff.1 hother.mem) trivial)
      (hother.key_le (hperm.mem_iff.2 hbest.mem) trivial)
  · obtain ⟨before, after, hsplit, -, hafter⟩ := hbest.splits
    exact ⟨before, after, hsplit, fun c hc => hafter c hc trivial⟩

/-! A node takes part in a graph and hears of one that is equally good, of one that is further away
and of one that is not grounded. -/

/-- Its own graph. -/
def homeDag : Dag := ⟨true, 1, 300, true, some (.ofLastByte 2)⟩

/-- The one that is equally good. -/
def twinDag : Dag := ⟨true, 1, 300, false, none⟩

/-- The one that is further away. -/
def distantDag : Dag := ⟨true, 1, 400, false, none⟩

/-- The one that is not grounded. -/
def floatingDag : Dag := ⟨false, 7, 1, false, none⟩

/-- Of two graphs of the same merit the last one is chosen. -/
theorem foldl_better_twinDag :
    [twinDag, floatingDag, distantDag, homeDag].Perm
        [homeDag, floatingDag, distantDag, twinDag] ∧
      [floatingDag, distantDag, homeDag].foldl best twinDag = homeDag ∧
      [floatingDag, distantDag, twinDag].foldl best homeDag = twinDag ∧
      homeDag.merit = twinDag.merit ∧
      distantDag ∈ [homeDag, floatingDag, distantDag, twinDag] ∧
      distantDag.merit ≤ twinDag.merit := by
  have hperm : [twinDag, floatingDag, distantDag, homeDag].Perm
      [homeDag, floatingDag, distantDag, twinDag] := by decide
  have hdistant : distantDag ∈ [homeDag, floatingDag, distantDag, twinDag] := by decide
  obtain ⟨-, -, hmax, hmerit, -⟩ := foldl_better id homeDag [floatingDag, distantDag, twinDag]
  exact ⟨hperm, rfl, rfl, hmerit twinDag [floatingDag, distantDag, homeDag] hperm, hdistant,
    hmax distantDag hdistant⟩

end SlottedMesh.Dag
