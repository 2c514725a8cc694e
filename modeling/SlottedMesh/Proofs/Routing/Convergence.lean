import SlottedMesh.Proofs.Routing.Average

/-!
# Where a delivery ratio goes

Under delivery ratios the link metric is a moving average too, but each attempt counts: all but the
last of a transmission failed.  `ratioAfter` is the ratio after one transmission, before it is cut
to sixteen bits; as no ratio goes above `one`, the cut takes nothing away
(`toNat_linkMetric_learn`).

* The order of ratios is kept, more attempts make the ratio no larger, and a transmission that was
  never acknowledged leaves it no larger than one that was (`ratioAfter_mono`, `ratioAfter_anti`,
  `ratioAfter_unacknowledged_le_delivered`).
* A transmission that was never acknowledged takes away one unit at least, as long as there is any
  (`ratioAfter_unacknowledged_le`), so that after enough of them nothing is left
  (`linkMetric_learnAll_unacknowledged_eq_zero`).
* A success at the first attempt adds a fiftieth of what is missing to `one`, rounded downwards
  (`afterSuccess_eq`).  That is nothing once fewer than fifty units are missing, and so the ratio
  comes to rest on a plateau below `one`; it gets there from anywhere (`le_of_succ`).

`ratio_of_feedback` is the main statement.
-/

namespace SlottedMesh.DeliveryRatio

variable {attempts attempts' ratio ratio' : Nat} {u : Nat → Nat}

/-! ## One transmission -/

/-- The ratio after one transmission, before it is cut to sixteen bits. -/
def ratioAfter (outcome : Outcome) (attempts ratio : Nat) : Nat :=
  match outcome with
  | .delivered => afterSuccess (Nat.repeat afterFailure (attempts - 1) ratio)
  | .unacknowledged => afterFailure (Nat.repeat afterFailure (attempts - 1) ratio)
  | .other => ratio

/-- A better ratio is better after a failure, -/
theorem afterFailure_mono (h : ratio ≤ ratio') : afterFailure ratio ≤ afterFailure ratio' :=
  Nat.div_le_div_right (Nat.mul_le_mul_right 98 h)

/-- and after a success. -/
theorem afterSuccess_mono (h : ratio ≤ ratio') : afterSuccess ratio ≤ afterSuccess ratio' :=
  Nat.div_le_div_right (Nat.add_le_add_right (Nat.mul_le_mul_right 98 h) _)

/-- A failure takes away one unit at least. -/
theorem afterFailure_le_sub_one (ratio : Nat) : afterFailure ratio ≤ ratio - 1 := by
  unfold afterFailure
  omega

/-- A success adds a fiftieth of what is missing. -/
theorem afterSuccess_eq (h : ratio ≤ one) : afterSuccess ratio = ratio + (one - ratio) / 50 := by
  have hone : one = 65535 := rfl
  unfold afterSuccess
  omega

/-- From a larger ratio one comes to a larger ratio, if not to the same. -/
theorem ratioAfter_mono (outcome : Outcome) (attempts : Nat) (h : ratio ≤ ratio') :
    ratioAfter outcome attempts ratio ≤ ratioAfter outcome attempts ratio' := by
  have hretries := repeat_le_repeat (fun _ _ => afterFailure_mono) (attempts - 1) h
  cases outcome with
  | delivered => exact afterSuccess_mono hretries
  | unacknowledged => exact afterFailure_mono hretries
  | other => exact h

/-- More attempts do not make the ratio larger. -/
theorem ratioAfter_anti (outcome : Outcome) (h : attempts ≤ attempts') (ratio : Nat) :
    ratioAfter outcome attempts' ratio ≤ ratioAfter outcome attempts ratio := by
  have hretries := repeat_anti afterFailure_le ratio (Nat.sub_le_sub_right h 1)
  cases outcome with
  | delivered => exact afterSuccess_mono hretries
  | unacknowledged => exact afterFailure_mono hretries
  | other => exact Nat.le_refl _

/-- A transmission that is acknowledged in the end leaves the better ratio. -/
theorem ratioAfter_unacknowledged_le_delivered (attempts ratio : Nat) :
    ratioAfter .unacknowledged attempts ratio ≤ ratioAfter .delivered attempts ratio :=
  Nat.div_le_div_right (Nat.le_add_right _ _)

/-- A transmission that was never acknowledged takes away one unit at least. -/
theorem ratioAfter_unacknowledged_le (attempts ratio : Nat) :
    ratioAfter .unacknowledged attempts ratio ≤ ratio - 1 := by
  have hretries := repeat_le afterFailure_le (attempts - 1) ratio
  exact Nat.le_trans (afterFailure_le_sub_one _) (Nat.sub_le_sub_right hretries 1)

/-- No ratio goes above `one`. -/
theorem ratioAfter_le_one (outcome : Outcome) (attempts : Nat) (h : ratio ≤ one) :
    ratioAfter outcome attempts ratio ≤ one := by
  have hretries := Nat.le_trans (repeat_le afterFailure_le (attempts - 1) ratio) h
  cases outcome with
  | delivered => exact afterSuccess_mono hretries
  | unacknowledged => exact Nat.le_trans (afterFailure_le _) hretries
  | other => exact h

/-- No ratio is more than one. -/
theorem toNat_linkMetric_le (n : Neighbor) : n.linkMetric.toNat ≤ one :=
  Nat.le_of_lt_succ n.linkMetric.toNat_lt

/-- What is learnt is that ratio; the cut to sixteen bits takes nothing away. -/
theorem toNat_linkMetric_learn (o : DeliveryRatio) (outcome : Outcome) (attempts : UInt16)
    (n : Neighbor) :
    ((Objective.deliveryRatio o).learn outcome attempts n).linkMetric.toNat =
      ratioAfter outcome attempts.toNat n.linkMetric.toNat := by
  have hroom := ratioAfter_le_one outcome attempts.toNat (toNat_linkMetric_le n)
  cases outcome with
  | delivered => exact (toNat_saturate16 _).trans (Nat.min_eq_left hroom)
  | unacknowledged => exact (toNat_saturate16 _).trans (Nat.min_eq_left hroom)
  | other => rfl

/-- Links are ordered as their ratios are. -/
theorem linkMetric_learn_le {o : DeliveryRatio} {m n : Neighbor} {outcome outcome' : Outcome}
    {attempts attempts' : UInt16}
    (h : ratioAfter outcome attempts.toNat m.linkMetric.toNat ≤
      ratioAfter outcome' attempts'.toNat n.linkMetric.toNat) :
    ((Objective.deliveryRatio o).learn outcome attempts m).linkMetric ≤
      ((Objective.deliveryRatio o).learn outcome' attempts' n).linkMetric := by
  rw [UInt16.le_iff_toNat_le, toNat_linkMetric_learn, toNat_linkMetric_learn]
  exact h

/-! ## Failure after failure -/

/-- A transmission that was never acknowledged lowers the ratio, as long as there is any. -/
theorem linkMetric_learn_unacknowledged_lt (o : DeliveryRatio) (attempts : UInt16) {n : Neighbor}
    (hpos : 0 < n.linkMetric) :
    ((Objective.deliveryRatio o).learn .unacknowledged attempts n).linkMetric < n.linkMetric := by
  have hlowered := ratioAfter_unacknowledged_le attempts.toNat n.linkMetric.toNat
  rw [UInt16.lt_iff_toNat_lt, UInt16.toNat_zero] at hpos
  rw [UInt16.lt_iff_toNat_lt, toNat_linkMetric_learn]
  omega

/-- Each of the transmissions that were never acknowledged takes away one unit at least. -/
theorem linkMetric_learnAll_unacknowledged_le (o : DeliveryRatio) (counts : List UInt16)
    (n : Neighbor) :
    ((Objective.deliveryRatio o).learnAll (counts.map (.unacknowledged, ·)) n).linkMetric.toNat ≤
      n.linkMetric.toNat - counts.length := by
  induction counts generalizing n with
  | nil => exact Nat.le_refl _
  | cons attempts counts ih =>
    have hrest := ih ((Objective.deliveryRatio o).learn .unacknowledged attempts n)
    have hfirst := ratioAfter_unacknowledged_le attempts.toNat n.linkMetric.toNat
    rw [toNat_linkMetric_learn] at hrest
    refine Nat.le_trans hrest ?_
    rw [List.length_cons]
    omega

/-- As many of them as the ratio has units leave nothing. -/
theorem linkMetric_learnAll_unacknowledged_eq_zero (o : DeliveryRatio) {counts : List UInt16}
    {n : Neighbor} (hcounts : n.linkMetric.toNat ≤ counts.length) :
    ((Objective.deliveryRatio o).learnAll (counts.map (.unacknowledged, ·)) n).linkMetric = 0 := by
  have hlowered := linkMetric_learnAll_unacknowledged_le o counts n
  rw [← UInt16.toNat_inj, UInt16.toNat_zero]
  omega

/-! ## Success after success -/

/-- On the plateau a success adds nothing. -/
theorem afterSuccess_of_le (hle : 65486 ≤ ratio) (hone : ratio ≤ one) :
    afterSuccess ratio = ratio := by
  have hone' : one = 65535 := rfl
  rw [afterSuccess_eq hone, Nat.div_eq_of_lt (by omega), Nat.add_zero]

/-- Where the first attempt is acknowledged, that success is all that is learnt. -/
theorem toNat_linkMetric_learn_delivered_one (o : DeliveryRatio) (n : Neighbor) :
    ((Objective.deliveryRatio o).learn .delivered 1 n).linkMetric.toNat =
      afterSuccess n.linkMetric.toNat :=
  toNat_linkMetric_learn o .delivered 1 n

/-- On the plateau it leaves the ratio as it is. -/
theorem linkMetric_learn_delivered_one_of_le (o : DeliveryRatio) {n : Neighbor}
    (hplateau : 65486 ≤ n.linkMetric) :
    ((Objective.deliveryRatio o).learn .delivered 1 n).linkMetric = n.linkMetric := by
  rw [← UInt16.toNat_inj, toNat_linkMetric_learn_delivered_one]
  exact afterSuccess_of_le (UInt16.le_iff_toNat_le.1 hplateau) (toNat_linkMetric_le n)

/-- Every success takes away a fiftieth of the way to the plateau, at least, so that 549 of them
lead to it from anywhere. -/
theorem le_of_succ (hu : ∀ i, u (i + 1) = afterSuccess (u i)) (hstart : u 0 ≤ one) {i : Nat}
    (hi : 549 ≤ i) : 65486 ≤ u i := by
  have hone : one = 65535 := rfl
  have hle (i : Nat) : u i ≤ one := by
    induction i with
    | zero => exact hstart
    | succ i ih =>
      rw [hu]
      exact afterSuccess_mono ih
  have hshrinks (i : Nat) : 50 * (65486 - u (i + 1)) ≤ 49 * (65486 - u i) := by
    have hbound := hle i
    rw [hu, afterSuccess_eq hbound]
    omega
  have hway : 65486 - u i = 0 :=
    eq_zero_of_shrinks (d := fun i => 65486 - u i) hshrinks (Nat.sub_le _ _) (by decide)
      (by decide +kernel) hi
  omega

/-- After so many successes in a row the ratio is within fifty of one. -/
theorem le_linkMetric_iterate (o : DeliveryRatio) (n : Neighbor) {i : Nat} (hi : 549 ≤ i) :
    65486 ≤ (((Objective.deliveryRatio o).learn .delivered 1)^[i] n).linkMetric := by
  rw [UInt16.le_iff_toNat_le]
  refine le_of_succ (u := fun i =>
    (((Objective.deliveryRatio o).learn .delivered 1)^[i] n).linkMetric.toNat) (fun i => ?_)
    (toNat_linkMetric_le n) hi
  rw [Function.iterate_succ_apply', toNat_linkMetric_learn_delivered_one]

/-! ## All that feedback does -/

/-- **Ratios that keep their order and converge.**  What is learnt from a transmission is computed
in words without a stop and stays within `one`; from a larger ratio one comes to no smaller one, and
with more attempts to no larger one.  A transmission that was never acknowledged leaves the ratio no
larger than one that was acknowledged after as many attempts, does not raise it and lowers it if it
is not zero; it is zero after as many of these as it had units.  A success at the first attempt does
not lower the ratio.  After 900 of them, wherever they began, it lies on the plateau from 65486
on, where none of them changes it any more. -/
theorem ratio_of_feedback (o : DeliveryRatio) (n : Neighbor) :
    let learn := (Objective.deliveryRatio o).learn
    (∀ outcome attempts,
      (Objective.deliveryRatio o).checkedLearn outcome attempts n =
        pure (learn outcome attempts n) ∧
      (learn outcome attempts n).linkMetric.toNat =
        ratioAfter outcome attempts.toNat n.linkMetric.toNat ∧
      ratioAfter outcome attempts.toNat n.linkMetric.toNat ≤ 65535 ∧
      (∀ m : Neighbor, n.linkMetric ≤ m.linkMetric →
        (learn outcome attempts n).linkMetric ≤ (learn outcome attempts m).linkMetric) ∧
      ∀ attempts', attempts ≤ attempts' →
        (learn outcome attempts' n).linkMetric ≤ (learn outcome attempts n).linkMetric) ∧
    (∀ attempts,
      (learn .unacknowledged attempts n).linkMetric ≤ (learn .delivered attempts n).linkMetric ∧
      (learn .unacknowledged attempts n).linkMetric ≤ n.linkMetric ∧
      (0 < n.linkMetric → (learn .unacknowledged attempts n).linkMetric < n.linkMetric)) ∧
    (∀ counts : List UInt16, n.linkMetric.toNat ≤ counts.length →
      ((Objective.deliveryRatio o).learnAll
        (counts.map (.unacknowledged, ·)) n).linkMetric = 0) ∧
    n.linkMetric ≤ (learn .delivered 1 n).linkMetric ∧
    (∀ i, 900 ≤ i → 65486 ≤ ((learn .delivered 1)^[i] n).linkMetric) ∧
    (65486 ≤ n.linkMetric → (learn .delivered 1 n).linkMetric = n.linkMetric) := by
  refine ⟨fun outcome attempts => ⟨Objective.checkedLearn_eq _ _ _ _,
      toNat_linkMetric_learn o outcome attempts n,
      ratioAfter_le_one outcome _ (toNat_linkMetric_le n), fun m hm => ?_, fun attempts' h => ?_⟩,
    fun attempts => ⟨?_, linkMetric_learn_unacknowledged_le o attempts n,
      linkMetric_learn_unacknowledged_lt o attempts⟩,
    fun counts => linkMetric_learnAll_unacknowledged_eq_zero o,
    le_linkMetric_learn_delivered o n, fun i hi => le_linkMetric_iterate o n (by omega),
    linkMetric_learn_delivered_one_of_le o⟩
  · exact linkMetric_learn_le (ratioAfter_mono outcome _ (UInt16.le_iff_toNat_le.1 hm))
  · exact linkMetric_learn_le (ratioAfter_anti outcome (UInt16.le_iff_toNat_le.1 h) _)
  · exact linkMetric_learn_le (ratioAfter_unacknowledged_le_delivered _ _)

/-! A neighbour that is hardly heard, and one that is heard as well as feedback can tell. -/

/-- The first one. -/
def faintNeighbor : Neighbor := ⟨.ofLastByte 2, 256, 3, 40, 0⟩

/-- The second one. -/
def clearNeighbor : Neighbor := ⟨.ofLastByte 3, 256, 65486, 1000, 0⟩

/-- All of this for a neighbour of which little is heard and one that is heard clearly. -/
theorem ratio_of_feedback_faintNeighbor :
    let learn := (Objective.deliveryRatio ⟨1, 0⟩).learn
    faintNeighbor.linkMetric ≤ clearNeighbor.linkMetric ∧ 0 < faintNeighbor.linkMetric ∧
      faintNeighbor.linkMetric.toNat ≤ [1, 60000, 2].length ∧
      (learn .delivered 2 faintNeighbor).linkMetric ≤
        (learn .delivered 2 clearNeighbor).linkMetric ∧
      (learn .delivered 65535 faintNeighbor).linkMetric ≤
        (learn .delivered 2 faintNeighbor).linkMetric ∧
      (learn .unacknowledged 2 faintNeighbor).linkMetric < faintNeighbor.linkMetric ∧
      ((Objective.deliveryRatio ⟨1, 0⟩).learnAll [(.unacknowledged, 1), (.unacknowledged, 60000),
        (.unacknowledged, 2)] faintNeighbor).linkMetric = 0 ∧
      65486 ≤ ((learn .delivered 1)^[900] faintNeighbor).linkMetric ∧
      (learn .delivered 1 clearNeighbor).linkMetric = clearNeighbor.linkMetric := by
  have hworse : faintNeighbor.linkMetric ≤ clearNeighbor.linkMetric := by decide
  have hpos : 0 < faintNeighbor.linkMetric := by decide
  have hcounts : faintNeighbor.linkMetric.toNat ≤ [1, 60000, 2].length := by decide
  obtain ⟨horder, hfailure, hsilence, -, hsuccesses, -⟩ := ratio_of_feedback ⟨1, 0⟩ faintNeighbor
  obtain ⟨-, -, -, hmono, hanti⟩ := horder .delivered 2
  obtain ⟨-, -, hlowered⟩ := hfailure 2
  obtain ⟨-, -, -, -, -, hplateau⟩ := ratio_of_feedback ⟨1, 0⟩ clearNeighbor
  exact ⟨hworse, hpos, hcounts, hmono clearNeighbor hworse, hanti 65535 (by decide),
    hlowered hpos, hsilence [1, 60000, 2] hcounts, hsuccesses 900 (Nat.le_refl _),
    hplateau (by decide)⟩

end SlottedMesh.DeliveryRatio
