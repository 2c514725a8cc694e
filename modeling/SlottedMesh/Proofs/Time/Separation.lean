import Mathlib.Data.List.Nodup
import Mathlib.Data.Nat.ModEq
import SlottedMesh.Proofs.Time.Residue

/-!
# Channels of links that are on together

Links that are on in one slot are kept apart by their channel offsets: each reads the hopping
sequence at its own distance from the slot number.  The offset is added to a slot number of forty
bits before the remainder is taken, so that next to the end of the count the sum wraps, and what is
left of it is another remainder unless the number of channels divides `2 ^ 40`.

* `positionAt_eq_of_wraps` says which position is read where the sum wraps.
* `channelAt_eq_iff_wraps` is the main statement: two offsets that differ round the sequence lead to
  one channel exactly if one of the two sums wraps and the offsets differ by the remainder of
  `2 ^ 40`.
* `channelAt_eq_of_wrap` is a slot in which this happens: three channels, and offsets of zero and
  one in the last slot of the count.
-/

namespace SlottedMesh.HoppingSequence

variable {h : HoppingSequence} {channels : Array UInt8} {n : SlotNumber} {offset offset' : UInt16}

/-- The slot's count and the channel offset together have no room in forty bits. -/
def Wraps (n : SlotNumber) (offset : UInt16) : Prop := 2 ^ 40 ≤ n.toNat + offset.toNat

instance (n : SlotNumber) (offset : UInt16) : Decidable (Wraps n offset) :=
  inferInstanceAs (Decidable (_ ≤ _))

/-! ## Positions -/

/-- As long as the sum does not wrap, the position is its remainder by the number of channels. -/
theorem positionAt_eq_of_not_wraps (hh : ofChannels channels = .ok h) (hroom : ¬Wraps n offset) :
    h.positionAt n offset = (n.toNat + offset.toNat) % channels.size :=
  positionAt_eq hh (Nat.not_le.1 hroom)

/-- Where the sum wraps, it wraps once: what is read is the position of the rest. -/
theorem positionAt_eq_of_wraps (hh : ofChannels channels = .ok h) (hwraps : Wraps n offset) :
    h.positionAt n offset = (n.toNat + offset.toNat - 2 ^ 40) % channels.size := by
  have hn : n.toNat < 2 ^ 40 := n.toNat_lt
  have hoffset : offset.toNat < 2 ^ 16 := offset.toNat_lt
  have hwraps : 2 ^ 40 ≤ n.toNat + offset.toNat := hwraps
  have hrest : (n.toNat + offset.toNat) % 2 ^ 40 = n.toNat + offset.toNat - 2 ^ 40 := by omega
  rw [positionAt_eq_wrapped hh, hrest]

/-- Of channels that are all different, the same one is used only at the same position. -/
theorem channelAt_eq_iff (hh : ofChannels channels = .ok h) (hnodup : channels.toList.Nodup) :
    h.channelAt n offset = h.channelAt n offset' ↔
      h.positionAt n offset = h.positionAt n offset' := by
  obtain ⟨hchannels, -⟩ := ofChannels_eq_ok hh
  rw [← hchannels] at hnodup
  have hget := h.getElem?_positionAt n offset
  have hget' := h.getElem?_positionAt n offset'
  rw [← Array.getElem?_toList] at hget hget'
  constructor
  · intro heq
    rw [heq, ← hget'] at hget
    have hlt : h.positionAt n offset < h.channels.toList.length := by
      simpa using h.positionAt_lt n offset
    exact (List.getElem?_inj hlt hnodup).1 hget
  · intro heq
    rw [heq, hget'] at hget
    exact (Option.some.inj hget).symm

/-- If one sum wraps and the other does not, the positions are the same exactly if the offset whose
sum wraps is further by the remainder of `2 ^ 40`. -/
theorem positionAt_eq_iff_of_wraps (hh : ofChannels channels = .ok h) (hwraps : Wraps n offset)
    (hroom : ¬Wraps n offset') :
    h.positionAt n offset = h.positionAt n offset' ↔
      offset.toNat ≡ offset'.toNat + 2 ^ 40 [MOD channels.size] := by
  rw [positionAt_eq_of_wraps hh hwraps, positionAt_eq_of_not_wraps hh hroom]
  obtain ⟨rest, hrest⟩ := Nat.exists_eq_add_of_le hwraps
  rw [hrest, Nat.add_sub_cancel_left]
  constructor
  · intro heq
    have heq : rest ≡ n.toNat + offset'.toNat [MOD channels.size] := heq
    apply Nat.ModEq.add_left_cancel' n.toNat
    calc n.toNat + offset.toNat = 2 ^ 40 + rest := hrest
      _ ≡ 2 ^ 40 + (n.toNat + offset'.toNat) [MOD channels.size] := heq.add_left _
      _ = n.toNat + (offset'.toNat + 2 ^ 40) := by omega
  · intro heq
    apply Nat.ModEq.add_left_cancel' (2 ^ 40)
    calc 2 ^ 40 + rest = n.toNat + offset.toNat := hrest.symm
      _ ≡ n.toNat + (offset'.toNat + 2 ^ 40) [MOD channels.size] := heq.add_left _
      _ = 2 ^ 40 + (n.toNat + offset'.toNat) := by omega

/-- If both sums wrap or neither does, offsets that differ round the sequence lead to different
positions. -/
theorem positionAt_ne (hh : ofChannels channels = .ok h)
    (hapart : ¬offset.toNat ≡ offset'.toNat [MOD channels.size])
    (hsame : Wraps n offset ↔ Wraps n offset') :
    h.positionAt n offset ≠ h.positionAt n offset' := by
  intro heq
  apply hapart
  by_cases hwraps : Wraps n offset
  · have hwraps' := hsame.1 hwraps
    rw [positionAt_eq_of_wraps hh hwraps, positionAt_eq_of_wraps hh hwraps'] at heq
    have heq : n.toNat + offset.toNat - 2 ^ 40 ≡ n.toNat + offset'.toNat - 2 ^ 40
        [MOD channels.size] := heq
    apply Nat.ModEq.add_left_cancel' n.toNat
    have hback := heq.add_right (2 ^ 40)
    rwa [Nat.sub_add_cancel hwraps, Nat.sub_add_cancel hwraps'] at hback
  · rw [positionAt_eq_of_not_wraps hh hwraps,
      positionAt_eq_of_not_wraps hh fun hwraps' => hwraps (hsame.2 hwraps')] at heq
    exact Nat.ModEq.add_left_cancel' n.toNat heq

/-! ## Channels -/

/-- **When offsets keep links apart.**  In a sequence of different channels a link uses, in each
slot where its sum does not wrap, the channel at the slot's count plus its offset.  Two offsets that
differ round the sequence lead to the same channel in a slot exactly if one of the two sums wraps
there and its offset is further than the other by the remainder of `2 ^ 40`; so never, if the number
of channels divides `2 ^ 40`. -/
theorem channelAt_eq_iff_wraps (hh : ofChannels channels = .ok h) (hnodup : channels.toList.Nodup)
    (hapart : ¬offset.toNat ≡ offset'.toNat [MOD channels.size]) (n : SlotNumber) :
    (∀ o, ¬Wraps n o →
      channels[(n.toNat + o.toNat) % channels.size]? = some (h.channelAt n o)) ∧
    (h.channelAt n offset = h.channelAt n offset' ↔
      Wraps n offset ∧ ¬Wraps n offset' ∧
          offset.toNat ≡ offset'.toNat + 2 ^ 40 [MOD channels.size] ∨
        Wraps n offset' ∧ ¬Wraps n offset ∧
          offset'.toNat ≡ offset.toNat + 2 ^ 40 [MOD channels.size]) ∧
    (channels.size ∣ 2 ^ 40 → h.channelAt n offset ≠ h.channelAt n offset') := by
  have hiff : h.channelAt n offset = h.channelAt n offset' ↔
      Wraps n offset ∧ ¬Wraps n offset' ∧
          offset.toNat ≡ offset'.toNat + 2 ^ 40 [MOD channels.size] ∨
        Wraps n offset' ∧ ¬Wraps n offset ∧
          offset'.toNat ≡ offset.toNat + 2 ^ 40 [MOD channels.size] := by
    rw [channelAt_eq_iff hh hnodup]
    by_cases hwraps : Wraps n offset <;> by_cases hwraps' : Wraps n offset'
    · simp [hwraps, hwraps', positionAt_ne hh hapart (iff_of_true hwraps hwraps')]
    · simp [hwraps, hwraps', positionAt_eq_iff_of_wraps hh hwraps hwraps']
    · rw [eq_comm]
      simp [hwraps, hwraps', positionAt_eq_iff_of_wraps hh hwraps' hwraps]
    · simp [hwraps, hwraps', positionAt_ne hh hapart (iff_of_false hwraps hwraps')]
  refine ⟨?_, hiff, ?_⟩
  · intro o hroom
    obtain ⟨hchannels, -⟩ := ofChannels_eq_ok hh
    rw [← positionAt_eq_of_not_wraps hh hroom, ← hchannels]
    exact h.getElem?_positionAt n o
  · intro hdvd heq
    have hzero : 2 ^ 40 ≡ 0 [MOD channels.size] := Nat.modEq_zero_iff_dvd.2 hdvd
    rcases hiff.1 heq with ⟨-, -, hfurther⟩ | ⟨-, -, hfurther⟩
    · exact hapart (hfurther.trans (hzero.add_left _))
    · exact hapart (hfurther.trans (hzero.add_left _)).symm

/-! Three channels, of which the last slot of the count uses the first.  With an offset of one the
sum wraps to zero, where the first channel is used again; with an offset of two it wraps to one. -/

/-- The channels. -/
def threeChannels : Array UInt8 := #[11, 12, 13]

/-- The last slot of the count. -/
def lastSlot : SlotNumber := .ofNat (2 ^ 40 - 1)

/-- In the last slot the offsets 0 and 1 take the same of three channels, and 2 takes another. -/
theorem channelAt_eq_iff_wraps_lastSlot :
    ∃ h, ofChannels threeChannels = .ok h ∧
      h.channelAt lastSlot 1 = h.channelAt lastSlot 0 ∧
      h.channelAt lastSlot 2 ≠ h.channelAt lastSlot 0 := by
  obtain ⟨h, hh⟩ : ∃ h, ofChannels threeChannels = .ok h :=
    exists_ofChannels (by decide) (by decide)
  have hone := @channelAt_eq_iff_wraps h threeChannels 1 0 hh (by decide) (by decide) lastSlot
  have htwo := @channelAt_eq_iff_wraps h threeChannels 2 0 hh (by decide) (by decide) lastSlot
  refine ⟨h, hh, hone.2.1.2 (.inl ?_), fun heq => ?_⟩
  · decide
  · rcases htwo.2.1.1 heq with ⟨-, -, hfurther⟩ | ⟨hwraps, -⟩
    · exact absurd hfurther (by decide)
    · exact absurd hwraps (by decide)

/-- Offsets that differ round a sequence of different channels do not lead to different channels in
every slot: not where one of the sums wraps. -/
theorem channelAt_eq_of_wrap :
    ¬∀ (channels : Array UInt8) (h : HoppingSequence) (n : SlotNumber) (offset offset' : UInt16),
      ofChannels channels = .ok h → channels.toList.Nodup →
      ¬offset.toNat ≡ offset'.toNat [MOD channels.size] →
      h.channelAt n offset ≠ h.channelAt n offset' := by
  intro hall
  obtain ⟨h, hh, heq⟩ : ∃ h, ofChannels threeChannels = .ok h ∧
      h.channelAt lastSlot 1 = h.channelAt lastSlot 0 := ⟨_, rfl, by decide⟩
  exact hall threeChannels h lastSlot 1 0 hh (by decide) (by decide) heq

end SlottedMesh.HoppingSequence
