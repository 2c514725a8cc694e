import SlottedMesh.Routing.Objective

/-!
# What is learnt from transmissions

A transmission that says something about the link changes the link metric of an entry and its count
of attempts; address, rank and what the neighbour advertises stay.  `learnAll` is the entry after
several transmissions, one after another, and `Reaches` says which link metrics a link can come to
have in this way.

Under delivery ratios a failed attempt never raises the ratio (`nextMetric_unacknowledged_le`), and
a success at the first attempt never lowers it (`le_nextMetric_delivered`), as there is nothing
above the ratio `one` that it is drawn to.
-/

namespace SlottedMesh

/-- A larger number is no smaller after it was cut to sixteen bits. -/
theorem saturate16_le_saturate16 {m n : Nat} (h : m ≤ n) : saturate16 m ≤ saturate16 n := by
  rw [UInt16.le_iff_toNat_le, toNat_saturate16, toNat_saturate16]
  omega

section

variable {f g : Nat → Nat} {a b : Nat}

/-- Steps that keep an order lead from a smaller number to a smaller one, if not to the same. -/
theorem repeat_le_repeat (hfg : ∀ a b, a ≤ b → f a ≤ g b) (n : Nat) (h : a ≤ b) :
    Nat.repeat f n a ≤ Nat.repeat g n b := by
  induction n with
  | zero => exact h
  | succ n ih => exact hfg _ _ ih

/-- What is never raised by a step is not raised by further ones. -/
theorem repeat_anti (hf : ∀ a, f a ≤ a) (a : Nat) {m n : Nat} (h : m ≤ n) :
    Nat.repeat f n a ≤ Nat.repeat f m a := by
  induction h with
  | refl => exact Nat.le_refl _
  | step _ ih => exact Nat.le_trans (hf _) ih

/-- What is never raised by a step is not raised by several. -/
theorem repeat_le (hf : ∀ a, f a ≤ a) (n a : Nat) : Nat.repeat f n a ≤ a :=
  repeat_anti hf a (Nat.zero_le n)

end

/-! ## Entries -/

namespace Objective

variable (o : Objective) (outcome : Outcome) (attempts : UInt16) (n : Neighbor)

/-- Feedback leaves the address of a neighbour, -/
@[simp] theorem address_learn : (o.learn outcome attempts n).address = n.address := by
  cases outcome <;> rfl

/-- and its rank. -/
@[simp] theorem rank_learn : (o.learn outcome attempts n).rank = n.rank := by
  cases outcome <;> rfl

/-- Nothing is learnt from a transmission that tells nothing of the link. -/
theorem learn_other : o.learn .other attempts n = n := rfl

variable {outcome} {n}

/-- All that an outcome changes that tells of the link. -/
theorem learn_of_ne (houtcome : outcome ≠ .other) (attempts : UInt16) (n : Neighbor) :
    o.learn outcome attempts n =
      { n with
        linkMetric := match o with
          | .hopCount _ => HopCount.nextMetric n outcome attempts
          | .deliveryRatio _ => DeliveryRatio.nextMetric n outcome attempts
        txCount := saturate16 (n.txCount.toNat + attempts.toNat) } := by
  cases outcome with
  | delivered => rfl
  | unacknowledged => rfl
  | other => exact absurd rfl houtcome

/-- Under hop counting the metric is the next mean. -/
theorem linkMetric_learn_hopCount (o : HopCount) (houtcome : outcome ≠ .other)
    (attempts : UInt16) :
    ((hopCount o).learn outcome attempts n).linkMetric =
      HopCount.nextMetric n outcome attempts := by
  rw [learn_of_ne _ houtcome]

/-- Under delivery ratios it is the next ratio. -/
theorem linkMetric_learn_deliveryRatio (o : DeliveryRatio) (houtcome : outcome ≠ .other)
    (attempts : UInt16) :
    ((deliveryRatio o).learn outcome attempts n).linkMetric =
      DeliveryRatio.nextMetric n outcome attempts := by
  rw [learn_of_ne _ houtcome]

/-- It adds the attempts to the count. -/
theorem txCount_learn (houtcome : outcome ≠ .other) (attempts : UInt16) (n : Neighbor) :
    (o.learn outcome attempts n).txCount = saturate16 (n.txCount.toNat + attempts.toNat) := by
  rw [learn_of_ne _ houtcome]

/-- What is known of a neighbour after several transmissions to it, each with its outcome and the
attempts that it took. -/
def learnAll (feedback : List (Outcome × UInt16)) (n : Neighbor) : Neighbor :=
  feedback.foldl (fun n event => o.learn event.1 event.2 n) n

/-- A link that was not used before comes to have the metric after some transmissions. -/
def Reaches (metric : UInt16) : Prop :=
  ∃ address rank feedback, (o.learnAll feedback (o.newNeighbor address rank)).linkMetric = metric

end Objective

/-! ## Delivery ratios -/

namespace DeliveryRatio

variable {ratio : Nat}

/-- A failure does not raise the ratio. -/
theorem afterFailure_le (ratio : Nat) : afterFailure ratio ≤ ratio := by
  unfold afterFailure
  omega

/-- A success does not lower it. -/
theorem le_afterSuccess (h : ratio ≤ one) : ratio ≤ afterSuccess ratio := by
  have hone : one = 65535 := rfl
  unfold afterSuccess
  omega

/-- A transmission that is never acknowledged is one failure for each attempt. -/
theorem nextMetric_unacknowledged (n : Neighbor) (attempts : UInt16) :
    nextMetric n .unacknowledged attempts = saturate16
      (afterFailure (Nat.repeat afterFailure (attempts.toNat - 1) n.linkMetric.toNat)) := rfl

/-- One that is acknowledged is failures and then a success. -/
theorem nextMetric_delivered (n : Neighbor) (attempts : UInt16) :
    nextMetric n .delivered attempts = saturate16
      (afterSuccess (Nat.repeat afterFailure (attempts.toNat - 1) n.linkMetric.toNat)) := rfl

/-- A transmission that was never acknowledged does not raise the ratio, however many attempts were
made. -/
theorem nextMetric_unacknowledged_le (n : Neighbor) (attempts : UInt16) :
    nextMetric n .unacknowledged attempts ≤ n.linkMetric := by
  have hretries := repeat_le afterFailure_le (attempts.toNat - 1) n.linkMetric.toNat
  rw [UInt16.le_iff_toNat_le, nextMetric_unacknowledged, toNat_saturate16]
  exact Nat.le_trans (Nat.min_le_left _ _) (Nat.le_trans (afterFailure_le _) hretries)

/-- A transmission that was acknowledged at once does not lower the ratio. -/
theorem le_nextMetric_delivered (n : Neighbor) : n.linkMetric ≤ nextMetric n .delivered 1 := by
  have hmetric : n.linkMetric.toNat ≤ one := Nat.le_of_lt_succ n.linkMetric.toNat_lt
  rw [UInt16.le_iff_toNat_le, nextMetric_delivered, toNat_saturate16]
  exact Nat.le_min.2 ⟨le_afterSuccess hmetric, hmetric⟩

/-- The ratio that is learnt from a transmission without acknowledgement is no larger. -/
theorem linkMetric_learn_unacknowledged_le (o : DeliveryRatio) (attempts : UInt16) (n : Neighbor) :
    ((Objective.deliveryRatio o).learn .unacknowledged attempts n).linkMetric ≤ n.linkMetric := by
  rw [Objective.linkMetric_learn_deliveryRatio o (by decide)]
  exact nextMetric_unacknowledged_le n attempts

/-- The ratio that is learnt from one that was acknowledged at once is no smaller. -/
theorem le_linkMetric_learn_delivered (o : DeliveryRatio) (n : Neighbor) :
    n.linkMetric ≤ ((Objective.deliveryRatio o).learn .delivered 1 n).linkMetric := by
  rw [Objective.linkMetric_learn_deliveryRatio o (by decide)]
  exact le_nextMetric_delivered n

end DeliveryRatio

end SlottedMesh
