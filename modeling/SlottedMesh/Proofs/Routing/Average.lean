import Mathlib.Logic.Function.Iterate
import SlottedMesh.Proofs.Checked.Routing
import SlottedMesh.Proofs.Routing.Feedback

/-!
# The moving average of a link

Under hop counting the link metric is an average of the transmissions that packets took, in which
the last sample has a weight of three tenths at first and of one tenth later.  The average is cut to
a whole number, downwards, so that from below it stops short of its sample, and from above it does
not.

* `nextMetric_near`: one sample moves the average towards it and not past it.
* `learnAll_mem`: as long as no packet takes more than sixteen attempts, the average stays between
  the metric of one transmission and that of a packet that was never acknowledged.
* `Approaches` says what becomes of the average if all samples are the same.  Each takes away a
  tenth of the distance, and after 106 of them nothing is left of any that sixteen bits can hold
  (`eq_zero_of_shrinks`, for any such factor), but for the nine units that the cut can leave below.
* `average_of_feedback` is the main statement.
-/

namespace SlottedMesh

/-! ## Distances that shrink -/

section

variable {d : Nat → Nat} {p q start k : Nat}

/-- A gap that each step shrinks by a factor is shrunk by its power. -/
theorem mul_pow_le_of_shrinks (hd : ∀ i, p * d (i + 1) ≤ q * d i) (i : Nat) :
    d i * p ^ i ≤ d 0 * q ^ i := by
  induction i with
  | zero => exact Nat.le_refl _
  | succ i ih =>
    calc d (i + 1) * p ^ (i + 1) = p * d (i + 1) * p ^ i := by
          rw [Nat.pow_succ, Nat.mul_comm (p ^ i), ← Nat.mul_assoc, Nat.mul_comm (d (i + 1))]
      _ ≤ q * d i * p ^ i := Nat.mul_le_mul_right _ (hd i)
      _ = q * (d i * p ^ i) := Nat.mul_assoc _ _ _
      _ ≤ q * (d 0 * q ^ i) := Nat.mul_le_mul_left q ih
      _ = d 0 * q ^ (i + 1) := by rw [Nat.pow_succ, Nat.mul_comm q, Nat.mul_assoc]

/-- Of a distance nothing is left after as many steps as take it, at its largest, below one. -/
theorem eq_zero_of_shrinks (hd : ∀ i, p * d (i + 1) ≤ q * d i) (hstart : d 0 ≤ start)
    (hp : 0 < p) (hsmall : start * q ^ k < p ^ k) {i : Nat} (hi : k ≤ i) : d i = 0 := by
  induction i, hi using Nat.le_induction with
  | base =>
    by_contra hne
    have hleft : p ^ k ≤ d k * p ^ k := Nat.le_mul_of_pos_left _ (Nat.pos_of_ne_zero hne)
    have hshrunk := mul_pow_le_of_shrinks hd k
    have hbound : d 0 * q ^ k ≤ start * q ^ k := Nat.mul_le_mul_right _ hstart
    exact absurd (Nat.le_trans hleft (Nat.le_trans hshrunk hbound)) (Nat.not_le.2 hsmall)
  | succ i _ ih =>
    have hstep := hd i
    rw [ih, Nat.mul_zero, Nat.le_zero, Nat.mul_eq_zero] at hstep
    exact hstep.resolve_left hp.ne'

end

namespace HopCount

variable {n : Neighbor} {outcome : Outcome} {attempts : UInt16} {s : Nat} {u : Nat → Nat}

/-! ## One sample -/

/-- The old metric weighs seventy or ninety of a hundred parts. -/
theorem weight_eq_or (txCount : UInt16) : weight txCount = 70 ∨ weight txCount = 90 := by
  unfold weight
  split
  · exact .inl rfl
  · exact .inr rfl

/-- It weighs ninety once two attempts were counted. -/
theorem weight_of_le {txCount : UInt16} (h : 2 ≤ txCount) : weight txCount = 90 :=
  if_neg (UInt16.not_lt.2 h)

/-- The next metric is the weighted mean of the metric and the sample, cut to sixteen bits. -/
theorem toNat_nextMetric (n : Neighbor) (outcome : Outcome) (attempts : UInt16) :
    (nextMetric n outcome attempts).toNat =
      min ((n.linkMetric.toNat * weight n.txCount +
        sample outcome attempts * (100 - weight n.txCount)) / 100) 65535 :=
  toNat_saturate16 _

/-- The average moves towards the sample, or what sixteen bits can hold of it, and not past it. -/
theorem nextMetric_near (n : Neighbor) (outcome : Outcome) (attempts : UInt16) :
    min n.linkMetric.toNat (min (sample outcome attempts) 65535) ≤
        (nextMetric n outcome attempts).toNat ∧
      (nextMetric n outcome attempts).toNat ≤
        max n.linkMetric.toNat (min (sample outcome attempts) 65535) := by
  have hmetric := n.linkMetric.toNat_lt
  rw [toNat_nextMetric]
  rcases weight_eq_or n.txCount with hweight | hweight
  · rw [hweight]
    omega
  · rw [hweight]
    omega

/-! ## Any samples -/

/-- A packet that took some attempts, and sixteen at most, counts for one transmission at least and
for no more than one that was never acknowledged. -/
theorem sample_mem (hpos : 1 ≤ attempts) (hle : attempts ≤ 16) :
    128 ≤ sample outcome attempts ∧ sample outcome attempts ≤ 2048 := by
  have hpos : 1 ≤ attempts.toNat := UInt16.le_iff_toNat_le.1 hpos
  have hle : attempts.toNat ≤ 16 := UInt16.le_iff_toNat_le.1 hle
  unfold sample penalty unit
  split <;> omega

/-- Between the best metric and that of sixteen attempts it stays. -/
theorem learn_mem (o : HopCount) (outcome : Outcome) (hpos : 1 ≤ attempts) (hle : attempts ≤ 16)
    (hn : 128 ≤ n.linkMetric.toNat ∧ n.linkMetric.toNat ≤ 2048) :
    128 ≤ ((Objective.hopCount o).learn outcome attempts n).linkMetric.toNat ∧
      ((Objective.hopCount o).learn outcome attempts n).linkMetric.toNat ≤ 2048 := by
  by_cases houtcome : outcome = .other
  · rw [houtcome, Objective.learn_other]
    exact hn
  · have hsample : 128 ≤ sample outcome attempts ∧ sample outcome attempts ≤ 2048 :=
      sample_mem hpos hle
    have hnear := nextMetric_near n outcome attempts
    rw [Objective.linkMetric_learn_hopCount o houtcome]
    omega

/-- It stays so, whatever the samples are. -/
theorem learnAll_mem (o : HopCount) {feedback : List (Outcome × UInt16)}
    (hfeedback : ∀ e ∈ feedback, 1 ≤ e.2 ∧ e.2 ≤ 16)
    (hn : 128 ≤ n.linkMetric.toNat ∧ n.linkMetric.toNat ≤ 2048) :
    128 ≤ ((Objective.hopCount o).learnAll feedback n).linkMetric.toNat ∧
      ((Objective.hopCount o).learnAll feedback n).linkMetric.toNat ≤ 2048 := by
  induction feedback generalizing n with
  | nil => exact hn
  | cons e es ih =>
    obtain ⟨⟨hpos, hle⟩, hes⟩ := List.forall_mem_cons.1 hfeedback
    exact ih hes (learn_mem o e.1 hpos hle hn)

/-- Then a packet that is never acknowledged does not lower the average. -/
theorem linkMetric_le_learn_unacknowledged (o : HopCount) (attempts : UInt16)
    (hn : n.linkMetric.toNat ≤ 2048) :
    n.linkMetric ≤ ((Objective.hopCount o).learn .unacknowledged attempts n).linkMetric := by
  have hsample : sample .unacknowledged attempts = 2048 := rfl
  have hnear := nextMetric_near n .unacknowledged attempts
  rw [Objective.linkMetric_learn_hopCount o (by decide), UInt16.le_iff_toNat_le]
  omega

/-! ## The same sample again and again -/

/-- Numbers that go to `s`, from below or from above, and not past it, and that are there after 106
of them: at `s`, or nine below it at most. -/
structure Approaches (s : Nat) (u : Nat → Nat) : Prop where
  /-- From below they go up. -/
  rises : u 0 ≤ s → ∀ i, u i ≤ u (i + 1) ∧ u (i + 1) ≤ s
  /-- From above they go down. -/
  falls : s ≤ u 0 → ∀ i, s ≤ u (i + 1) ∧ u (i + 1) ≤ u i
  /-- They get there and stay. -/
  arrives : ∀ i, 106 ≤ i → s ≤ u i + 9 ∧ u i ≤ s

/-- Averages with a weight of one tenth for the sample approach it. -/
theorem approaches_of_succ (hu : ∀ i, u (i + 1) = (9 * u i + s) / 10) (hstart : u 0 ≤ 65535)
    (hs : s ≤ 65535) : Approaches s u := by
  refine ⟨fun hbelow i => ?_, fun habove i => ?_, fun i hi => ?_⟩
  · have hle : u i ≤ s := by
      induction i with
      | zero => exact hbelow
      | succ i ih =>
        rw [hu]
        omega
    rw [hu]
    omega
  · have hle : s ≤ u i := by
      induction i with
      | zero => exact habove
      | succ i ih =>
        rw [hu]
        omega
    rw [hu]
    omega
  · -- what is above the sample shrinks to nothing, and so does what is below it by more than nine
    have hexcess : u i - s = 0 :=
      eq_zero_of_shrinks (d := fun i => u i - s) (p := 10) (q := 9) (fun i => by rw [hu]; omega)
        (show _ ≤ 65535 by omega) (by decide) (by decide) hi
    have hshortage : s - 9 - u i = 0 :=
      eq_zero_of_shrinks (d := fun i => s - 9 - u i) (p := 10) (q := 9)
        (fun i => by rw [hu]; omega) (show _ ≤ 65535 by omega) (by decide) (by decide) hi
    omega

/-- Once two attempts were counted, the sample has a weight of one tenth. -/
theorem toNat_nextMetric_of_le (hcount : 2 ≤ n.txCount)
    (hsample : sample outcome attempts ≤ 65535) :
    (nextMetric n outcome attempts).toNat =
      (9 * n.linkMetric.toNat + sample outcome attempts) / 10 := by
  have hmetric := n.linkMetric.toNat_lt
  rw [toNat_nextMetric, weight_of_le hcount]
  omega

/-- Feedback does not make the count of attempts smaller than two. -/
theorem le_txCount_learn (o : HopCount) (houtcome : outcome ≠ .other) (attempts : UInt16)
    (hcount : 2 ≤ n.txCount) :
    2 ≤ ((Objective.hopCount o).learn outcome attempts n).txCount := by
  have hcount : 2 ≤ n.txCount.toNat := UInt16.le_iff_toNat_le.1 hcount
  have htwo : (2 : UInt16).toNat = 2 := rfl
  have hsize : UInt16.size = 65536 := rfl
  rw [Objective.txCount_learn _ houtcome, UInt16.le_iff_toNat_le, toNat_saturate16]
  omega

/-- Nor does repeated feedback. -/
theorem le_txCount_iterate (o : HopCount) (houtcome : outcome ≠ .other) (attempts : UInt16)
    (hcount : 2 ≤ n.txCount) (i : Nat) :
    2 ≤ (((Objective.hopCount o).learn outcome attempts)^[i] n).txCount := by
  induction i with
  | zero => exact hcount
  | succ i ih =>
    rw [Function.iterate_succ_apply']
    exact le_txCount_learn o houtcome attempts ih

/-- If the same happens to packet after packet, the average approaches the sample. -/
theorem approaches_iterate (o : HopCount) (houtcome : outcome ≠ .other) (hcount : 2 ≤ n.txCount)
    (hsample : sample outcome attempts ≤ 65535) :
    Approaches (sample outcome attempts) fun i =>
      (((Objective.hopCount o).learn outcome attempts)^[i] n).linkMetric.toNat := by
  refine approaches_of_succ (fun i => ?_) (Nat.le_of_lt_succ n.linkMetric.toNat_lt) hsample
  rw [Function.iterate_succ_apply', Objective.linkMetric_learn_hopCount o houtcome]
  exact toNat_nextMetric_of_le (le_txCount_iterate o houtcome attempts hcount i) hsample

/-! ## All that feedback does -/

/-- **An average that does not overshoot.**  An outcome that says nothing of the link changes
nothing; any other moves the metric towards its sample and not past it, and no step of the
computation has a result too large for its word.  In an entry that was just made and then learnt of
packets with sixteen attempts at most, the metric is one transmission at least and sixteen at most,
and a packet that is never acknowledged does not lower it.  In an entry with two attempts or more,
the same sample again and again is approached, if sixteen bits can hold it. -/
theorem average_of_feedback (o : HopCount) :
    (∀ (n : Neighbor) (attempts : UInt16),
      (Objective.hopCount o).learn .other attempts n = n ∧
      ∀ outcome, outcome ≠ .other →
        (Objective.hopCount o).checkedLearn outcome attempts n =
          pure ((Objective.hopCount o).learn outcome attempts n) ∧
        min n.linkMetric.toNat (min (sample outcome attempts) 65535) ≤
          ((Objective.hopCount o).learn outcome attempts n).linkMetric.toNat ∧
        ((Objective.hopCount o).learn outcome attempts n).linkMetric.toNat ≤
          max n.linkMetric.toNat (min (sample outcome attempts) 65535)) ∧
    (∀ (address : Address) (rank : UInt16) (feedback : List (Outcome × UInt16)),
      (∀ e ∈ feedback, 1 ≤ e.2 ∧ e.2 ≤ 16) →
      let n := (Objective.hopCount o).learnAll feedback
        ((Objective.hopCount o).newNeighbor address rank)
      (128 ≤ n.linkMetric.toNat ∧ n.linkMetric.toNat ≤ 2048) ∧
      ∀ attempts, n.linkMetric ≤
        ((Objective.hopCount o).learn .unacknowledged attempts n).linkMetric) ∧
    ∀ (n : Neighbor) (outcome : Outcome) (attempts : UInt16), outcome ≠ .other →
      2 ≤ n.txCount → sample outcome attempts ≤ 65535 →
      Approaches (sample outcome attempts) fun i =>
        (((Objective.hopCount o).learn outcome attempts)^[i] n).linkMetric.toNat := by
  refine ⟨fun n attempts => ⟨rfl, fun outcome houtcome => ?_⟩, ?_, ?_⟩
  · rw [Objective.linkMetric_learn_hopCount o houtcome]
    exact ⟨Objective.checkedLearn_eq _ _ _ _, nextMetric_near n outcome attempts⟩
  · intro address rank feedback hfeedback n
    have hnew : 128 ≤ initialMetric.toNat ∧ initialMetric.toNat ≤ 2048 := by decide
    have hmem : 128 ≤ n.linkMetric.toNat ∧ n.linkMetric.toNat ≤ 2048 :=
      learnAll_mem o hfeedback hnew
    exact ⟨hmem, fun attempts => linkMetric_le_learn_unacknowledged o attempts hmem.2⟩
  · intro n outcome attempts houtcome hcount hsample
    exact approaches_iterate o houtcome hcount hsample

/-! A neighbour that had heard everything until it fell silent. -/

/-- The last packets that it heard, and the first that it did not. -/
def lastPackets : List (Outcome × UInt16) :=
  [(.delivered, 1), (.delivered, 3), (.other, 1), (.unacknowledged, 16)]

/-- What is known of it then. -/
def fallenSilent : Neighbor :=
  (Objective.hopCount ⟨1, 64⟩).learnAll lastPackets
    ((Objective.hopCount ⟨1, 64⟩).newNeighbor (.ofLastByte 2) 1)

/-- After a hundred and six transmissions without an answer the metric is close to the sample. -/
theorem average_of_feedback_fallenSilent :
    2 ≤ fallenSilent.txCount ∧
      128 ≤ fallenSilent.linkMetric.toNat ∧ fallenSilent.linkMetric.toNat ≤ 2048 ∧
      2039 ≤ (((Objective.hopCount ⟨1, 64⟩).learn .unacknowledged 16)^[106]
        fallenSilent).linkMetric.toNat := by
  have hcount : 2 ≤ fallenSilent.txCount := by decide +kernel
  obtain ⟨-, hhistory, hrepeated⟩ := average_of_feedback ⟨1, 64⟩
  obtain ⟨⟨hpos, hle⟩, -⟩ := hhistory (.ofLastByte 2) 1 lastPackets (by decide)
  have happroaches := hrepeated fallenSilent .unacknowledged 16 (by decide) hcount (by decide)
  obtain ⟨harrived, -⟩ := happroaches.arrives 106 (Nat.le_refl 106)
  have hsample : sample .unacknowledged 16 = 2048 := rfl
  rw [hsample] at harrived
  exact ⟨hcount, hpos, hle, by omega⟩

end HopCount

end SlottedMesh
