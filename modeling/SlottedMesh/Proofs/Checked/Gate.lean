import SlottedMesh.Proofs.Checked.Arithmetic
import SlottedMesh.Proofs.Radio.Order

/-!
# The radio gate without a stop

The count of holders stays at the most it can be when the schedule is taken hold of once more; only
letting go of it is a difference.  It is taken where the schedule is held, so that no call at the
gate stops, from outside or of the driver: `checkedCall_eq`.
-/

namespace SlottedMesh.Gate

open Checked

/-- Let go of the schedule once and leave the queue alone. -/
def checkedLower (g : Gate) : Checked Gate := do
  let depth ← sub g.depth.toNat 1
  return { g with depth := .ofNat depth }.note .released

/-- A call at the gate, with what becomes of the queue where nobody holds the schedule. -/
def checkedCallWith (handOver : Gate → Checked Gate) (g : Gate) : Call → Checked Gate
  | .request r =>
    let g := g.enqueue r
    if g.isHeld then return g else handOver g
  | .acquire => return g.acquire
  | .release =>
    if g.depth = 0 then return g
    else do
      let lowered ← g.checkedLower
      if g.depth = 1 then handOver lowered else return lowered

/-- Let the driver make the calls with which it reacts to what just happened. -/
def checkedReact (g : Gate) : Checked Gate :=
  g.reaction.foldlM (checkedCallWith pure) (g.spend g.reaction.length)

/-- Hand a request to the radio, after which `rest` waits. -/
def checkedApply (g : Gate) (r : RadioRequest) (rest : List RadioRequest) : Checked Gate :=
  ({ g with pending := rest }.note (.applied r)).checkedReact

/-- Only a schedule that is held is let go of. -/
theorem checkedLower_eq {g : Gate} (h : g.depth ≠ 0) : g.checkedLower = pure g.lower := by
  have hpos : 1 ≤ g.depth.toNat := UInt32.pos_iff_ne_zero.2 h
  have hdepth : UInt32.ofNat (g.depth.toNat - 1) = g.depth - 1 := by
    rw [← UInt32.toNat_one, ← UInt32.toNat_sub_of_le _ _ hpos, UInt32.ofNat_toNat]
  unfold checkedLower lower
  rw [sub_eq hpos, pure_bind, hdepth]

/-- A call does not stop where what it does with the queue does not. -/
theorem checkedCallWith_eq {handOver' : Gate → Checked Gate} {handOver : Gate → Gate}
    (h : ∀ g, handOver' g = pure (handOver g)) (g : Gate) (c : Call) :
    g.checkedCallWith handOver' c = pure (g.callWith handOver c) := by
  cases c with
  | request r =>
    simp only [checkedCallWith, callWith, h]
    split <;> rfl
  | acquire => rfl
  | release =>
    simp only [checkedCallWith, callWith]
    by_cases hzero : g.depth = 0
    · rw [if_pos hzero, if_pos hzero]
    · rw [if_neg hzero, if_neg hzero, checkedLower_eq hzero, pure_bind]
      simp only [h]
      split <;> rfl

/-- Applying a request does not stop, whatever calls it sets off. -/
theorem checkedApply_eq (g : Gate) (r : RadioRequest) (rest : List RadioRequest) :
    g.checkedApply r rest = pure (g.apply r rest) := by
  have hcall : checkedCallWith pure = fun g c => pure (nestedCall g c) :=
    funext fun g => funext fun c => checkedCallWith_eq (fun _ => rfl) g c
  unfold checkedApply checkedReact apply react
  rw [hcall, List.foldlM_pure]

/-- Hand over the queue until it is empty. -/
def checkedDrain (g : Gate) : Checked Gate :=
  match _hpending : g.pending with
  | [] => return g
  | r :: rest =>
    match _happly : g.checkedApply r rest with
    | .error fault => throw fault
    | .ok g' => g'.checkedDrain
termination_by g.pending.length + g.driver.budget
decreasing_by
  rw [checkedApply_eq] at _happly
  cases _happly
  have hle := length_pending_apply_le g r rest
  simp only [_hpending, List.length_cons]
  omega

/-- The induction is along the hand-over: no round of it stops. -/
theorem checkedDrain_eq (g : Gate) : g.checkedDrain = pure g.drain := by
  induction g using drain.induct with
  | case1 g hpending =>
    rw [checkedDrain, drain_of_nil hpending]
    split
    · rfl
    · simp_all
  | case2 g r rest hpending ih =>
    rw [checkedDrain, drain_of_cons hpending, ← ih]
    split
    · rename_i hnil
      rw [hpending] at hnil
      cases hnil
    · rename_i r' rest' hcons
      rw [hpending] at hcons
      cases hcons
      split
      · rename_i fault happly
        rw [checkedApply_eq] at happly
        cases happly
      · rename_i g' happly
        rw [checkedApply_eq] at happly
        cases happly
        rfl

/-- A call from outside the driver. -/
def checkedCall (g : Gate) (c : Call) : Checked Gate := g.checkedCallWith checkedDrain c

/-- No call at the gate stops. -/
theorem checkedCall_eq (g : Gate) (c : Call) : g.checkedCall c = pure (g.call c) :=
  checkedCallWith_eq checkedDrain_eq g c

end SlottedMesh.Gate
