import SlottedMesh.Proofs.Checked.Routing
import SlottedMesh.Proofs.Routing.Choice
import SlottedMesh.Proofs.Routing.Feedback

/-!
# Ranks that follow the losses

The rank over a parent is computed from the losses of the link and of the path from the parent on,
with a division that rounds at each step.  Every step has an order, and so has the whole: over a
worse link, over a parent further from the root or with a larger increase for each hop the rank is
never lower (`rankThrough_le_rankThrough`).

* `failAgain` is one of the four steps in which the chance of losing a packet on the link is
  computed; `lossRate_anti` and `pathLoss_le_pathLoss` are about all of them, and about the losses
  of the path.
* `rank_follows_losses` is the main statement.  It also says that what is learnt from a transmission
  moves the rank in the direction that one expects.
-/

namespace SlottedMesh.DeliveryRatio

variable {o o' : DeliveryRatio} {p q : Neighbor} {metric metric' : UInt16}

/-! ## The losses of a link -/

/-- What is left of a loss rate if one more attempt is made. -/
def failAgain (metric : UInt16) (rate : Nat) : Nat := rate * (base - metric.toNat) / base

/-- The loss rate is that of four attempts. -/
theorem lossRate_eq (metric : UInt16) : lossRate metric = Nat.repeat (failAgain metric) 4 base :=
  rfl

/-- A better link loses less of less. -/
theorem failAgain_le_failAgain (hmetric : metric ≤ metric') {rate rate' : Nat}
    (hrate : rate ≤ rate') : failAgain metric' rate ≤ failAgain metric rate' := by
  have hloss : base - metric'.toNat ≤ base - metric.toNat :=
    Nat.sub_le_sub_left (UInt16.le_iff_toNat_le.1 hmetric) base
  exact Nat.div_le_div_right (Nat.mul_le_mul hrate hloss)

/-- One more attempt does not raise the loss rate. -/
theorem failAgain_le (metric : UInt16) (rate : Nat) : failAgain metric rate ≤ rate := by
  apply Nat.div_le_of_le_mul
  rw [Nat.mul_comm base]
  exact Nat.mul_le_mul_left rate (Nat.sub_le _ _)

/-- It loses less in so many attempts. -/
theorem repeat_failAgain_le_repeat (hmetric : metric ≤ metric') (attempts rate : Nat) :
    Nat.repeat (failAgain metric') attempts rate ≤ Nat.repeat (failAgain metric) attempts rate :=
  repeat_le_repeat (fun _ _ => failAgain_le_failAgain hmetric) attempts (Nat.le_refl rate)

/-- The better the link, the lower its loss rate. -/
theorem lossRate_anti (h : metric ≤ metric') : lossRate metric' ≤ lossRate metric := by
  rw [lossRate_eq, lossRate_eq]
  exact repeat_failAgain_le_repeat h 4 base

/-- The first attempt loses what the ratio lacks. -/
theorem failAgain_base (metric : UInt16) : failAgain metric base = base - metric.toNat :=
  Nat.mul_div_cancel_left _ (by decide)

/-- A packet is lost no more often than a single attempt fails. -/
theorem lossRate_le (metric : UInt16) : lossRate metric ≤ base - metric.toNat := by
  rw [← failAgain_base]
  exact repeat_le (failAgain_le metric) 3 (failAgain metric base)

/-- A link that delivers anything at all does not lose everything. -/
theorem lossRate_le_one (h : metric ≠ 0) : lossRate metric ≤ one := by
  have hpos : metric.toNat ≠ 0 := fun hzero => h (UInt16.toNat_inj.1 hzero)
  have hone : one = base - 1 := rfl
  have hle := lossRate_le metric
  omega

/-! ## The losses of a path -/

/-- The part of packets that arrive over a parent, as a fraction of `base`, rounded to the
nearest. -/
def pathDelivery (parent : Neighbor) : Nat :=
  (base / 2 + (base - parent.rank.toNat) * (one - lossRate parent.linkMetric)) / base

/-- What a path loses is what it does not deliver. -/
theorem pathLoss_eq (parent : Neighbor) : pathLoss parent = one - pathDelivery parent := rfl

/-- Rounding does not make more packets arrive than there are. -/
theorem pathDelivery_le_one (parent : Neighbor) : pathDelivery parent ≤ one := by
  have hproduct : (base - parent.rank.toNat) * (one - lossRate parent.linkMetric) ≤ base * one :=
    Nat.mul_le_mul (Nat.sub_le _ _) (Nat.sub_le _ _)
  have hroom : base / 2 + base * one < base * (one + 1) := by decide
  exact Nat.le_of_lt_succ
    (Nat.div_lt_of_lt_mul (Nat.lt_of_le_of_lt (Nat.add_le_add_left hproduct _) hroom))

/-- Over a parent further from the root and a worse link as many packets are lost, or more. -/
theorem pathLoss_le_pathLoss (hrank : p.rank ≤ q.rank) (hmetric : q.linkMetric ≤ p.linkMetric) :
    pathLoss p ≤ pathLoss q := by
  have hparent : base - q.rank.toNat ≤ base - p.rank.toNat :=
    Nat.sub_le_sub_left (UInt16.le_iff_toNat_le.1 hrank) base
  have hlink : one - lossRate q.linkMetric ≤ one - lossRate p.linkMetric :=
    Nat.sub_le_sub_left (lossRate_anti hmetric) one
  have hdelivery : pathDelivery q ≤ pathDelivery p :=
    Nat.div_le_div_right (Nat.add_le_add_left (Nat.mul_le_mul hparent hlink) _)
  rw [pathLoss_eq, pathLoss_eq]
  exact Nat.sub_le_sub_left hdelivery one

/-! ## Ranks -/

/-- A larger increase, a worse rank of the parent and a worse link do not make the rank smaller. -/
theorem rankThrough_le_rankThrough (hincrease : o.rankIncrease ≤ o'.rankIncrease)
    (hrank : p.rank ≤ q.rank) (hmetric : q.linkMetric ≤ p.linkMetric) :
    o.rankThrough p ≤ o'.rankThrough q := by
  have hfloor : p.rank.toNat + o.rankIncrease.toNat ≤ q.rank.toNat + o'.rankIncrease.toNat :=
    Nat.add_le_add (UInt16.le_iff_toNat_le.1 hrank) (UInt16.le_iff_toNat_le.1 hincrease)
  apply saturate16_le_saturate16
  have hloss := pathLoss_le_pathLoss hrank hmetric
  omega

/-- A transmission that was never acknowledged does not lower the rank over the neighbour. -/
theorem rankThrough_le_learn_unacknowledged (o : DeliveryRatio) (attempts : UInt16)
    (p : Neighbor) :
    o.rankThrough p ≤
      o.rankThrough ((Objective.deliveryRatio o).learn .unacknowledged attempts p) := by
  apply rankThrough_le_rankThrough (UInt16.le_refl _) (UInt16.le_of_eq (by simp))
  exact linkMetric_learn_unacknowledged_le o attempts p

/-- A transmission that was acknowledged at once does not raise it. -/
theorem rankThrough_learn_delivered_le (o : DeliveryRatio) (p : Neighbor) :
    o.rankThrough ((Objective.deliveryRatio o).learn .delivered 1 p) ≤ o.rankThrough p := by
  apply rankThrough_le_rankThrough (UInt16.le_refl _) (UInt16.le_of_eq (by simp))
  exact le_linkMetric_learn_delivered o p

/-- **Ranks follow the losses.**  Over a worse link, a parent of higher rank or with a larger
increase for each hop, the rank is no lower.  It is the increase above the parent's, at least, until
ranks go no further, and is computed in words without a stop; what is subtracted from `one` on the
way is larger only for a link that delivers nothing.  Therefore a transmission that was never
acknowledged does not lower the rank over the neighbour, however many attempts it took, and one that
was acknowledged at once does not raise it. -/
theorem rank_follows_losses (o : DeliveryRatio) (p : Neighbor) :
    (∀ (o' : DeliveryRatio) (q : Neighbor), o.rankIncrease ≤ o'.rankIncrease → p.rank ≤ q.rank →
      q.linkMetric ≤ p.linkMetric → o.rankThrough p ≤ o'.rankThrough q) ∧
    min 65535 (p.rank.toNat + o.rankIncrease.toNat) ≤ (o.rankThrough p).toNat ∧
    o.checkedRankThrough p = pure (o.rankThrough p) ∧
    (p.linkMetric ≠ 0 → lossRate p.linkMetric ≤ one) ∧ pathDelivery p ≤ one ∧
    (∀ attempts, o.rankThrough p ≤
      o.rankThrough ((Objective.deliveryRatio o).learn .unacknowledged attempts p)) ∧
    o.rankThrough ((Objective.deliveryRatio o).learn .delivered 1 p) ≤ o.rankThrough p := by
  refine ⟨fun o' q => rankThrough_le_rankThrough, ?_, o.checkedRankThrough_eq p,
    lossRate_le_one, pathDelivery_le_one p,
    fun attempts => o.rankThrough_le_learn_unacknowledged attempts p,
    o.rankThrough_learn_delivered_le p⟩
  rw [Nat.min_comm]
  exact (Objective.deliveryRatio o).add_le_rankThrough p

/-! A neighbour near the root, over a link as good as it is taken to be at first, and one that is
further away and hears every other packet. -/

/-- The first one. -/
def nearNeighbor : Neighbor := ⟨.ofLastByte 2, 256, initialMetric, 0, 0⟩

/-- The second one. -/
def farNeighbor : Neighbor := ⟨.ofLastByte 3, 300, 32767, 10, 0⟩

/-- The near neighbour over the better link gives the smaller rank. -/
theorem rank_follows_losses_nearNeighbor :
    nearNeighbor.rank ≤ farNeighbor.rank ∧ farNeighbor.linkMetric ≤ nearNeighbor.linkMetric ∧
      (⟨1, 0⟩ : DeliveryRatio).rankThrough nearNeighbor ≤
        (⟨16, 0⟩ : DeliveryRatio).rankThrough farNeighbor ∧
      lossRate nearNeighbor.linkMetric ≤ one := by
  have hrank : nearNeighbor.rank ≤ farNeighbor.rank := by decide
  have hmetric : farNeighbor.linkMetric ≤ nearNeighbor.linkMetric := by decide
  obtain ⟨hmono, -, -, hloss, -⟩ := rank_follows_losses ⟨1, 0⟩ nearNeighbor
  exact ⟨hrank, hmetric, hmono ⟨16, 0⟩ farNeighbor (by decide) hrank hmetric, hloss (by decide)⟩

end SlottedMesh.DeliveryRatio
