import Mathlib.Algebra.Order.Floor.Semifield
import Mathlib.Data.Nat.Cast.Order.Field
import Mathlib.Data.Rat.Floor
import Mathlib.Tactic.Linarith
import Mathlib.Tactic.Ring
import SlottedMesh.Proofs.Routing.LossRank

/-!
# How far rounding takes the losses

The losses of a path are computed with whole numbers: four products are cut to whole units, one
after another, and a fifth is rounded to the nearest.  Next to that stands the same formula in
fractions, `exactPathLoss`, and the two are never far apart.

* Each cut loses less than one unit and what was lost before does not grow, as no link loses more
  than everything (`repeat_failAgain_le_exact`, `exact_sub_le_repeat_failAgain`).  The first product
  is a whole number already, so that of the four cuts only three count:
  `exact_sub_three_le_lossRate`.
* All these errors make the losses of the link smaller, and so those of the path.  The last product
  is rounded by half a unit at most, in either direction.  `pathLoss_near_exact` is the main
  statement.
-/

namespace SlottedMesh.DeliveryRatio

/-! ## The exact losses -/

/-- The chance that an attempt fails, exactly. -/
def exactFailure (metric : UInt16) : ℚ := (base - metric.toNat) / base

/-- The chance that four attempts in a row fail, exactly. -/
def exactLossRate (metric : UInt16) : ℚ := exactFailure metric ^ 4

/-- The part of packets lost on the way to the root, as a fraction of `one`, exactly. -/
def exactPathLoss (parent : Neighbor) : ℚ :=
  one - (base - parent.rank.toNat) * (one - base * exactLossRate parent.linkMetric) / base

/-- The parts of a whole, as a fraction. -/
theorem cast_base : (base : ℚ) = 65536 := by norm_num [base, UInt16.size]

/-- A whole ratio, as a fraction. -/
theorem cast_one : (one : ℚ) = 65535 := by norm_num [one, base, UInt16.size]

/-- What a sixteen-bit number leaves of `base`. -/
theorem cast_base_sub (x : UInt16) : ((base - x.toNat : Nat) : ℚ) = base - x.toNat :=
  Nat.cast_sub x.toNat_lt.le

/-- A word is less than the base. -/
theorem cast_toNat_le (x : UInt16) : (x.toNat : ℚ) ≤ base := Nat.cast_le.2 x.toNat_lt.le

/-- The exact chance of a failure is not negative, -/
theorem exactFailure_nonneg (metric : UInt16) : 0 ≤ exactFailure metric := by
  have hmetric := cast_toNat_le metric
  exact div_nonneg (by linarith) (Nat.cast_nonneg _)

/-- and not more than one. -/
theorem exactFailure_le_one (metric : UInt16) : exactFailure metric ≤ 1 := by
  have hpos : (0 : ℚ) < base := by norm_num [cast_base]
  have hmetric : (0 : ℚ) ≤ metric.toNat := Nat.cast_nonneg _
  rw [exactFailure, div_le_one hpos]
  linarith

/-! ## Cutting to whole units -/

/-- A quotient that is cut to a whole number loses less than one. -/
theorem div_sub_one_lt_cast (m n : Nat) : (m / n : ℚ) - 1 < (m / n : Nat) := by
  rw [← Nat.floor_div_eq_div (K := ℚ)]
  exact Nat.sub_one_lt_floor _

/-- Before it is cut, the rate after another failure is exact. -/
theorem cast_failAgain_product (metric : UInt16) (rate : Nat) :
    ((rate * (base - metric.toNat) : Nat) : ℚ) / base = rate * exactFailure metric := by
  rw [Nat.cast_mul, cast_base_sub, exactFailure, mul_div_assoc]

/-- Cutting does not raise the rate, -/
theorem failAgain_le_exact (metric : UInt16) (rate : Nat) :
    (failAgain metric rate : ℚ) ≤ rate * exactFailure metric := by
  rw [← cast_failAgain_product]
  exact Nat.cast_div_le

/-- and lowers it by less than one. -/
theorem exact_sub_one_lt_failAgain (metric : UInt16) (rate : Nat) :
    rate * exactFailure metric - 1 < failAgain metric rate := by
  rw [← cast_failAgain_product]
  exact div_sub_one_lt_cast _ _

/-- Cutting makes the loss rate smaller, if anything. -/
theorem repeat_failAgain_le_exact (metric : UInt16) (attempts rate : Nat) :
    ((Nat.repeat (failAgain metric) attempts rate : Nat) : ℚ) ≤
      rate * exactFailure metric ^ attempts := by
  induction attempts with
  | zero => rw [pow_zero, mul_one]; exact le_rfl
  | succ attempts ih =>
    calc ((failAgain metric (Nat.repeat (failAgain metric) attempts rate) : Nat) : ℚ)
        ≤ (Nat.repeat (failAgain metric) attempts rate : Nat) * exactFailure metric :=
          failAgain_le_exact metric _
      _ ≤ rate * exactFailure metric ^ attempts * exactFailure metric :=
          mul_le_mul_of_nonneg_right ih (exactFailure_nonneg metric)
      _ = rate * exactFailure metric ^ (attempts + 1) := by rw [pow_succ, mul_assoc]

/-- Each attempt that is counted makes it smaller by one unit at most. -/
theorem exact_sub_le_repeat_failAgain (metric : UInt16) (attempts rate : Nat) :
    rate * exactFailure metric ^ attempts - attempts ≤
      (Nat.repeat (failAgain metric) attempts rate : Nat) := by
  induction attempts with
  | zero => rw [pow_zero, mul_one, Nat.cast_zero, sub_zero]; exact le_rfl
  | succ attempts ih =>
    have hone := exactFailure_le_one metric
    have hbefore : (attempts : ℚ) * exactFailure metric ≤ attempts :=
      mul_le_of_le_one_right (Nat.cast_nonneg _) hone
    calc rate * exactFailure metric ^ (attempts + 1) - (attempts + 1 : Nat)
        ≤ (rate * exactFailure metric ^ attempts - attempts) * exactFailure metric - 1 := by
          rw [pow_succ, sub_mul, mul_assoc, Nat.cast_succ]
          linarith
      _ ≤ (Nat.repeat (failAgain metric) attempts rate : Nat) * exactFailure metric - 1 :=
          sub_le_sub_right (mul_le_mul_of_nonneg_right ih (exactFailure_nonneg metric)) 1
      _ ≤ (failAgain metric (Nat.repeat (failAgain metric) attempts rate) : Nat) :=
          (exact_sub_one_lt_failAgain metric _).le

/-! ## The losses of a link -/

/-- The first attempt is counted without an error. -/
theorem cast_failAgain_base (metric : UInt16) :
    (failAgain metric base : ℚ) = base * exactFailure metric := by
  have hpos : (base : ℚ) ≠ 0 := by norm_num [cast_base]
  rw [failAgain_base, cast_base_sub, exactFailure, mul_div_cancel₀ _ hpos]

/-- The loss rate is not more than the exact one, -/
theorem lossRate_le_exact (metric : UInt16) :
    (lossRate metric : ℚ) ≤ base * exactLossRate metric := by
  have hrest := repeat_failAgain_le_exact metric 3 (failAgain metric base)
  rw [cast_failAgain_base, mul_assoc, ← pow_succ'] at hrest
  exact hrest

/-- and less by three at most. -/
theorem exact_sub_three_le_lossRate (metric : UInt16) :
    base * exactLossRate metric - 3 ≤ lossRate metric := by
  have hrest := exact_sub_le_repeat_failAgain metric 3 (failAgain metric base)
  rw [cast_failAgain_base, mul_assoc, ← pow_succ'] at hrest
  exact hrest

/-- What arrives over a link is at most three units too much; a link over which nothing arrives,
whose losses are larger than `one`, is taken for one of which `one` is lost. -/
theorem delivered_near_exact (metric : UInt16) :
    one - base * exactLossRate metric ≤ (one - lossRate metric : Nat) ∧
      ((one - lossRate metric : Nat) : ℚ) ≤ one - base * exactLossRate metric + 3 := by
  have hupper := lossRate_le_exact metric
  have hlower := exact_sub_three_le_lossRate metric
  rcases Nat.le_total (lossRate metric) one with hle | hle
  · rw [Nat.cast_sub hle]
    constructor <;> linarith
  · have hall : (one : ℚ) ≤ lossRate metric := Nat.cast_le.2 hle
    have hrate : exactLossRate metric ≤ 1 :=
      pow_le_one₀ (exactFailure_nonneg metric) (exactFailure_le_one metric)
    rw [Nat.sub_eq_zero_of_le hle, Nat.cast_zero]
    rw [cast_one, cast_base] at *
    constructor <;> linarith

/-! ## The losses of a path -/

/-- The part of packets that arrive over a parent, as a fraction of `base`, before it is rounded. -/
def unroundedDelivery (parent : Neighbor) : ℚ :=
  (base - parent.rank.toNat) * (one - lossRate parent.linkMetric : Nat) / base

/-- It is rounded by half a unit at most. -/
theorem pathDelivery_near (p : Neighbor) :
    unroundedDelivery p - 1 / 2 < pathDelivery p ∧
      (pathDelivery p : ℚ) ≤ unroundedDelivery p + 1 / 2 := by
  have hhalf : ((base / 2 : Nat) : ℚ) = base / 2 := by norm_num [base, UInt16.size]
  have hsum : ((base / 2 + (base - p.rank.toNat) * (one - lossRate p.linkMetric) : Nat) : ℚ) /
      base = unroundedDelivery p + 1 / 2 := by
    rw [unroundedDelivery, Nat.cast_add, Nat.cast_mul, cast_base_sub, hhalf, cast_base]
    ring
  have hlower := div_sub_one_lt_cast
    (base / 2 + (base - p.rank.toNat) * (one - lossRate p.linkMetric)) base
  have hupper : (pathDelivery p : ℚ) ≤ _ := Nat.cast_div_le
  rw [hsum] at hlower hupper
  refine ⟨?_, hupper⟩
  show _ < ((pathDelivery p : Nat) : ℚ)
  unfold pathDelivery
  linarith

/-- The errors of the link reach the path, where they do not grow. -/
theorem unroundedDelivery_near_exact (p : Neighbor) :
    one - exactPathLoss p ≤ unroundedDelivery p ∧
      unroundedDelivery p ≤ one - exactPathLoss p + 3 := by
  have hpos : (0 : ℚ) < base := by norm_num [cast_base]
  have hrank : (0 : ℚ) ≤ p.rank.toNat := Nat.cast_nonneg _
  have hparent : (0 : ℚ) ≤ base - p.rank.toNat := sub_nonneg.2 (cast_toNat_le p.rank)
  obtain ⟨hlower, hupper⟩ := delivered_near_exact p.linkMetric
  rw [exactPathLoss, sub_sub_cancel, unroundedDelivery]
  constructor
  · exact div_le_div_of_nonneg_right (mul_le_mul_of_nonneg_left hlower hparent) hpos.le
  · rw [div_add' _ _ _ hpos.ne']
    apply div_le_div_of_nonneg_right _ hpos.le
    calc (base - p.rank.toNat : ℚ) * (one - lossRate p.linkMetric : Nat)
        ≤ (base - p.rank.toNat) * (one - base * exactLossRate p.linkMetric + 3) :=
          mul_le_mul_of_nonneg_left hupper hparent
      _ ≤ (base - p.rank.toNat) * (one - base * exactLossRate p.linkMetric) + 3 * base := by
          rw [mul_add]
          linarith

/-- **The error of the losses.**  The losses of a path, as they are computed, are less than half a
unit above the exact ones and no more than three and a half below.  The rank is the larger one of
these losses and the parent's rank with its increase, as far as ranks go. -/
theorem pathLoss_near_exact (o : DeliveryRatio) (p : Neighbor) :
    exactPathLoss p - 7 / 2 ≤ pathLoss p ∧ (pathLoss p : ℚ) < exactPathLoss p + 1 / 2 ∧
      (o.rankThrough p).toNat =
        min (max (pathLoss p) (p.rank.toNat + o.rankIncrease.toNat)) 65535 := by
  obtain ⟨hround, hround'⟩ := pathDelivery_near p
  obtain ⟨hlink, hlink'⟩ := unroundedDelivery_near_exact p
  rw [pathLoss_eq, Nat.cast_sub (pathDelivery_le_one p)]
  exact ⟨by linarith, by linarith, toNat_saturate16 _⟩

end SlottedMesh.DeliveryRatio
