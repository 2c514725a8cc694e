import SlottedMesh.Time.Divisor

/-!
# Channel hopping

A link does not stay on one channel: in each slot it takes the channel of the hopping sequence at
the slot number plus the link's channel offset, counted round the sequence.
-/

namespace SlottedMesh

/-- The channels that a network hops through, in order. -/
structure HoppingSequence where
  /-- The channels, in hopping order. -/
  channels : Array UInt8
  /-- Reduces slot numbers to positions of the sequence. -/
  divisor : Divisor
  /-- The divisor is the length of the sequence. -/
  value_eq_size : divisor.value.toNat = channels.size

namespace HoppingSequence

/-- The hopping sequence over `channels`.  It needs at least one channel, and not more than sixteen
bits can count. -/
def ofChannels (channels : Array UInt8) : Except TimingError HoppingSequence :=
  if hsize : channels.size < UInt16.size then
    if hzero : UInt16.ofNat channels.size = 0 then .error .zeroDivisor
    else .ok
      { channels
        divisor := .ofLength (.ofNat channels.size) hzero
        value_eq_size := by
          show (UInt16.ofNat channels.size).toNat = channels.size
          rw [UInt16.toNat_ofNat', Nat.mod_eq_of_lt hsize] }
  else .error .zeroDivisor

/-- The sixteen channels of the 2.4 GHz band in their usual order. -/
def defaultChannels : Array UInt8 :=
  #[16, 17, 23, 18, 26, 15, 25, 22, 19, 11, 12, 13, 24, 14, 20, 21]

/-- Hopping through the sixteen channels of the 2.4 GHz band. -/
def standard : HoppingSequence where
  channels := defaultChannels
  divisor := .ofLength 16 (by decide)
  value_eq_size := rfl

/-- The channel used in slot `n` by a link with this channel offset. -/
def channelAt (h : HoppingSequence) (n : SlotNumber) (offset : UInt16) : UInt8 :=
  let position := h.divisor.residue (n.advance offset.toUInt32)
  have hposition : position.toNat < h.channels.size := h.value_eq_size ▸ h.divisor.residue_lt _
  h.channels[position.toNat]

end HoppingSequence

end SlottedMesh
