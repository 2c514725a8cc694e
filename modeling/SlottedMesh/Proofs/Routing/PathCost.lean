import SlottedMesh.Proofs.Routing.Feedback

/-!
# What a worse link costs

The cost of a path is what the parent advertises of its own path and what the link to the parent
costs, cut to sixteen bits.  It follows both (`pathCost_le_pathCost`), and under hop counting the
link costs its metric.  Under delivery ratios the link costs the transmissions that a packet needs
at its ratio, which are the more the worse the link is (`toTransmissions_anti`).  Only at ratio zero
there is no such number, and a link over which nothing arrives costs nothing
(`pathCost_of_linkMetric_eq_zero`).

* `pathCost_of_worse_link` is the main statement: it says exactly when a worse link is not cheaper.
* `not_forall_pathCost_le` is a link that got worse and is cheaper: transmissions that are never
  acknowledged bring the ratio to zero in the end.
-/

namespace SlottedMesh

/-! ## Transmissions at a delivery ratio -/

namespace DeliveryRatio

variable {ratio ratio' : UInt16}

/-- Where anything arrives, the transmissions are one divided by the ratio. -/
theorem toTransmissions_of_ne_zero (h : ratio ≠ 0) :
    toTransmissions ratio = 128 * one / ratio.toNat := if_neg h

/-- At a lower ratio more transmissions are needed, unless the ratio is zero. -/
theorem toTransmissions_anti (hle : ratio ≤ ratio') (hne : ratio ≠ 0) :
    toTransmissions ratio' ≤ toTransmissions ratio := by
  have hpos : 0 < ratio.toNat :=
    Nat.pos_of_ne_zero fun hzero => hne (UInt16.toNat_inj.1 hzero)
  have hle : ratio.toNat ≤ ratio'.toNat := UInt16.le_iff_toNat_le.1 hle
  have hne' : ratio' ≠ 0 := by
    rintro rfl
    exact absurd hle (Nat.not_le.2 hpos)
  rw [toTransmissions_of_ne_zero hne, toTransmissions_of_ne_zero hne']
  exact Nat.div_le_div_left hle hpos

/-- Where anything arrives, one transmission is needed at least. -/
theorem le_toTransmissions (hne : ratio ≠ 0) : 128 ≤ toTransmissions ratio := by
  have hpos : 0 < ratio.toNat :=
    Nat.pos_of_ne_zero fun hzero => hne (UInt16.toNat_inj.1 hzero)
  rw [toTransmissions_of_ne_zero hne, Nat.le_div_iff_mul_le hpos]
  exact Nat.mul_le_mul_left 128 (Nat.le_of_lt_succ ratio.toNat_lt)

end DeliveryRatio

/-! ## Costs -/

namespace Objective

variable {o : Objective} {p q : Neighbor}

/-- The cost is the sum of both parts, cut to sixteen bits. -/
theorem toNat_pathCost (o : Objective) (p : Neighbor) :
    (o.pathCost (some p)).toNat = min (p.advertisedMetric.toNat + o.linkCost p) 65535 :=
  toNat_saturate16 _

/-- It follows what is advertised and what the link costs. -/
theorem pathCost_le_pathCost (hadvertised : p.advertisedMetric ≤ q.advertisedMetric)
    (hlink : o.linkCost p ≤ o.linkCost q) : o.pathCost (some p) ≤ o.pathCost (some q) :=
  saturate16_le_saturate16 (Nat.add_le_add (UInt16.le_iff_toNat_le.1 hadvertised) hlink)

/-- The cost of a link depends on its metric alone. -/
theorem linkCost_congr (o : Objective) (h : p.linkMetric = q.linkMetric) :
    o.linkCost p = o.linkCost q := by
  unfold linkCost
  rw [h]

/-- A link over which nothing arrives costs nothing. -/
theorem pathCost_of_linkMetric_eq_zero (o : DeliveryRatio) (h : p.linkMetric = 0) :
    (deliveryRatio o).pathCost (some p) = p.advertisedMetric := by
  have hadvertised := p.advertisedMetric.toNat_lt
  have hlink : (deliveryRatio o).linkCost p = 0 := if_pos h
  rw [← UInt16.toNat_inj, toNat_pathCost, hlink]
  omega

/-- Over a better link the path is no more expensive, unless nothing arrives over the worse one, it
does over the better one, and there is room for what that costs. -/
theorem pathCost_le_iff_of_linkMetric_le (o : DeliveryRatio)
    (hadvertised : p.advertisedMetric = q.advertisedMetric) (hle : p.linkMetric ≤ q.linkMetric) :
    (deliveryRatio o).pathCost (some q) ≤ (deliveryRatio o).pathCost (some p) ↔
      p.linkMetric ≠ 0 ∨ q.linkMetric = 0 ∨ p.advertisedMetric = 65535 := by
  by_cases hp : p.linkMetric = 0
  · by_cases hq : q.linkMetric = 0
    · have hsame : (deliveryRatio o).pathCost (some q) = (deliveryRatio o).pathCost (some p) := by
        rw [pathCost_of_linkMetric_eq_zero o hp, pathCost_of_linkMetric_eq_zero o hq, hadvertised]
      exact iff_of_true (UInt16.le_of_eq hsame) (.inr (.inl hq))
    · have hlink : 128 ≤ (deliveryRatio o).linkCost q := DeliveryRatio.le_toTransmissions hq
      have hroom := q.advertisedMetric.toNat_lt
      rw [pathCost_of_linkMetric_eq_zero o hp, UInt16.le_iff_toNat_le, toNat_pathCost, hadvertised,
        ← UInt16.toNat_inj (a := q.advertisedMetric)]
      have hmost : (65535 : UInt16).toNat = 65535 := rfl
      simp only [hp, hq, ne_eq, not_true_eq_false, false_or, hmost]
      omega
  · have hlink : (deliveryRatio o).linkCost q ≤ (deliveryRatio o).linkCost p :=
      DeliveryRatio.toTransmissions_anti hle hp
    exact iff_of_true (pathCost_le_pathCost (UInt16.le_of_eq hadvertised.symm) hlink) (.inl hp)

/-- **What a worse link costs.**  Let two neighbours advertise the same.  Under delivery ratios the
path over the worse link is not cheaper, unless nothing arrives over it; in that case it is cheaper
exactly if something arrives over the other one and there is room above what is advertised.  Under
hop counting the path over the link of the larger metric is not cheaper.  Over links of the same
metric, under either objective, the path is not cheaper where more is advertised.  Over a link of
delivery ratio zero the path costs what is advertised. -/
theorem pathCost_of_worse_link (p q : Neighbor) :
    (p.advertisedMetric = q.advertisedMetric → p.linkMetric ≤ q.linkMetric →
      (∀ o : DeliveryRatio,
        (deliveryRatio o).pathCost (some q) ≤ (deliveryRatio o).pathCost (some p) ↔
          p.linkMetric ≠ 0 ∨ q.linkMetric = 0 ∨ p.advertisedMetric = 65535) ∧
      ∀ o : HopCount, (hopCount o).pathCost (some p) ≤ (hopCount o).pathCost (some q)) ∧
    (p.linkMetric = q.linkMetric → p.advertisedMetric ≤ q.advertisedMetric →
      ∀ o : Objective, o.pathCost (some p) ≤ o.pathCost (some q)) ∧
    (p.linkMetric = 0 →
      ∀ o : DeliveryRatio, (deliveryRatio o).pathCost (some p) = p.advertisedMetric) := by
  refine ⟨?_, ?_, fun hzero o => pathCost_of_linkMetric_eq_zero o hzero⟩
  · intro hadvertised hle
    refine ⟨fun o => pathCost_le_iff_of_linkMetric_le o hadvertised hle, fun o => ?_⟩
    exact pathCost_le_pathCost (UInt16.le_of_eq hadvertised) (UInt16.le_iff_toNat_le.1 hle)
  · intro hlink hadvertised o
    exact pathCost_le_pathCost hadvertised (Nat.le_of_eq (o.linkCost_congr hlink))

/-! Three neighbours that advertise the same: to one of them nothing was sent yet, one hears every
other packet, and one did not acknowledge anything for a long time. -/

/-- The first one. -/
def unusedNeighbor : Neighbor := ⟨.ofLastByte 2, 1, DeliveryRatio.initialMetric, 0, 0⟩

/-- The second one. -/
def lossyNeighbor : Neighbor := ⟨.ofLastByte 3, 1, 32767, 20, 0⟩

/-- The third one. -/
def silentNeighbor : Neighbor :=
  (deliveryRatio ⟨1, 0⟩).learnAll [(.unacknowledged, 600)] unusedNeighbor

/-- Nothing arrives over the link to the third one. -/
theorem linkMetric_silentNeighbor : silentNeighbor.linkMetric = 0 := by decide +kernel

/-- The lossy link is not cheaper than the unused one, and over the silent one only the advertised
metric counts. -/
theorem pathCost_of_worse_link_lossy :
    lossyNeighbor.linkMetric ≤ unusedNeighbor.linkMetric ∧
      (deliveryRatio ⟨1, 0⟩).pathCost (some unusedNeighbor) ≤
        (deliveryRatio ⟨1, 0⟩).pathCost (some lossyNeighbor) ∧
      (hopCount ⟨1, 64⟩).pathCost (some lossyNeighbor) ≤
        (hopCount ⟨1, 64⟩).pathCost (some unusedNeighbor) ∧
      silentNeighbor.linkMetric = 0 ∧
      (deliveryRatio ⟨1, 0⟩).pathCost (some { silentNeighbor with advertisedMetric := 300 }) =
        300 := by
  have hle : lossyNeighbor.linkMetric ≤ unusedNeighbor.linkMetric := by decide
  obtain ⟨hratio, hhops⟩ := (pathCost_of_worse_link lossyNeighbor unusedNeighbor).1 rfl hle
  obtain ⟨-, -, hsilent⟩ :=
    pathCost_of_worse_link { silentNeighbor with advertisedMetric := 300 } unusedNeighbor
  exact ⟨hle, (hratio ⟨1, 0⟩).2 (.inl (by decide)), hhops ⟨1, 64⟩, linkMetric_silentNeighbor,
    hsilent linkMetric_silentNeighbor ⟨1, 0⟩⟩

/-- A worse link can be cheaper, also among those that transmissions bring about. -/
theorem not_forall_pathCost_le :
    ¬∀ (o : DeliveryRatio) (p q : Neighbor), (deliveryRatio o).Reaches p.linkMetric →
      (deliveryRatio o).Reaches q.linkMetric → p.advertisedMetric = q.advertisedMetric →
      p.linkMetric ≤ q.linkMetric →
      (deliveryRatio o).pathCost (some q) ≤ (deliveryRatio o).pathCost (some p) := by
  intro hclaim
  have hcost := hclaim ⟨1, 0⟩ silentNeighbor unusedNeighbor
    ⟨.ofLastByte 2, 1, [(.unacknowledged, 600)], rfl⟩ ⟨.ofLastByte 2, 1, [], rfl⟩ rfl
    (by rw [linkMetric_silentNeighbor]; decide)
  rw [pathCost_of_linkMetric_eq_zero _ linkMetric_silentNeighbor] at hcost
  revert hcost
  decide +kernel

end Objective

end SlottedMesh
