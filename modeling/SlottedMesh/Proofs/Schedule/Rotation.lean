import Mathlib.Data.List.Nodup
import Mathlib.Data.Nat.ModEq
import Mathlib.Order.Interval.Finset.Nat
import SlottedMesh.Proofs.Cells.Layout
import SlottedMesh.Proofs.Schedule.Current

/-!
# Rotation through the channels

A link comes on once in each turn of its slotframe, and the hopping sequence moves on by one
position in each slot.  If the length of the slotframe and the number of channels have no common
divisor, the two run through all their combinations: in any window of as many slots as there are
combinations, each is met once.

* `exists_mem_window` and `eq_of_mem_window` say this of numbers.  The offset is added before the
  remainder is taken, so that the window is looked at shifted by it.
* `Schedule.full_rotation` is the main statement: in such a window a link is on once for each
  position of the hopping sequence, and reads all of them.
-/

namespace SlottedMesh

/-! ## Windows of numbers -/

section Windows

variable {m n t i : Nat}

/-- In a window of `m * n` numbers one leaves `t` by `m` and, shifted, leaves `i` by `n`. -/
theorem exists_mem_window (hcoprime : m.Coprime n) (ht : t < m) (hi : i < n) (first shift : Nat) :
    ∃ k, first ≤ k ∧ k < first + m * n ∧ k % m = t ∧ (k + shift) % n = i := by
  obtain ⟨x, hxm, hxn⟩ := Nat.chineseRemainder hcoprime (t + shift) i
  have hpos : 0 < m * n := Nat.mul_pos (by omega) (by omega)
  have hx : x % (m * n) ∈
      (Finset.Ico (first + shift) (first + shift + m * n)).image (· % (m * n)) := by
    rw [Nat.image_Ico_mod, Finset.mem_range]
    exact Nat.mod_lt _ hpos
  obtain ⟨y, hy, hyx⟩ := Finset.mem_image.1 hx
  rw [Finset.mem_Ico] at hy
  -- the number that is looked for lies below `y` by the shift
  obtain ⟨k, rfl⟩ : ∃ k, y = k + shift := ⟨y - shift, by omega⟩
  have hmod : k + shift ≡ x [MOD m * n] := hyx
  have hm : k + shift ≡ t + shift [MOD m] := (hmod.of_mul_right n).trans hxm
  have hn : k + shift ≡ i [MOD n] := (hmod.of_mul_left m).trans hxn
  refine ⟨k, by omega, by omega, ?_, ?_⟩
  · have ht' : k ≡ t [MOD m] := Nat.ModEq.add_right_cancel' shift hm
    rw [ht', Nat.mod_eq_of_lt ht]
  · rw [hn, Nat.mod_eq_of_lt hi]

/-- It is the only one. -/
theorem eq_of_mem_window (hcoprime : m.Coprime n) {first shift k k' : Nat}
    (hk : k ∈ Finset.Ico first (first + m * n)) (hk' : k' ∈ Finset.Ico first (first + m * n))
    (hm : k % m = k' % m) (hn : (k + shift) % n = (k' + shift) % n) : k = k' := by
  have hn' : k ≡ k' [MOD n] := Nat.ModEq.add_right_cancel' shift hn
  have hmod : k ≡ k' [MOD m * n] := (Nat.modEq_and_modEq_iff_modEq_mul hcoprime).1 ⟨hm, hn'⟩
  exact Nat.mod_injOn_Ico first (m * n) hk hk' hmod

end Windows

/-! ## Links in a window -/

namespace Schedule

variable {s : Schedule} {frame timeslot length : UInt16} {l : Link} {channels : Array UInt8}
  {h : HoppingSequence} {first : Nat}

/-- The slots of a window in which a link is on: a window of `count` slots from the slot `first`. -/
def slotsOn (s : Schedule) (frame : UInt16) (l : Link) (first count : Nat) : List Nat :=
  (List.range' first count).filter fun k => (frame, l) ∈ s.current (.ofNat k)

/-- No slot is counted twice. -/
theorem nodup_slotsOn (s : Schedule) (frame : UInt16) (l : Link) (first count : Nat) :
    (s.slotsOn frame l first count).Nodup :=
  (List.nodup_range' ..).filter _

/-- In a window that does not wrap, these are the slots whose count leaves the timeslot. -/
theorem mem_slotsOn_iff (hs : s.WellFormed) (hlength : s.length? frame = some length)
    (hl : s.link? frame timeslot = some l) {count k : Nat} (hroom : first + count ≤ 2 ^ 40) :
    k ∈ s.slotsOn frame l first count ↔
      k ∈ Finset.Ico first (first + count) ∧ k % length.toNat = timeslot.toNat := by
  unfold slotsOn
  rw [List.mem_filter, List.mem_range'_1, Finset.mem_Ico, decide_eq_true_eq,
    mem_current_iff_mod hs hlength hl]
  refine and_congr_right fun hk => ?_
  have hcount : (SlotNumber.ofNat k).toNat = k := by
    rw [SlotNumber.toNat_ofNat]
    exact Nat.mod_eq_of_lt (Nat.lt_of_lt_of_le hk.2 hroom)
  rw [hcount]

/-- In these slots a link that hops reads each position of the sequence once. -/
theorem perm_positionAt (hs : s.WellFormed) (hlength : s.length? frame = some length)
    (hl : s.link? frame timeslot = some l) (hh : HoppingSequence.ofChannels channels = .ok h)
    (hcoprime : length.toNat.Coprime channels.size)
    (hroom : first + length.toNat * channels.size + l.channelOffset.toNat ≤ 2 ^ 40) :
    ((s.slotsOn frame l first (length.toNat * channels.size)).map fun k =>
      h.positionAt (.ofNat k) l.channelOffset).Perm (List.range channels.size) := by
  have hmem (k : Nat) : k ∈ s.slotsOn frame l first (length.toNat * channels.size) ↔
      k ∈ Finset.Ico first (first + length.toNat * channels.size) ∧
        k % length.toNat = timeslot.toNat := mem_slotsOn_iff hs hlength hl (by omega)
  have hposition : ∀ k ∈ s.slotsOn frame l first (length.toNat * channels.size),
      h.positionAt (.ofNat k) l.channelOffset =
        (k + l.channelOffset.toNat) % channels.size := by
    intro k hk
    obtain ⟨hwindow, -⟩ := (hmem k).1 hk
    rw [Finset.mem_Ico] at hwindow
    have hcount : (SlotNumber.ofNat k).toNat = k := by
      rw [SlotNumber.toNat_ofNat]
      exact Nat.mod_eq_of_lt (show k < 2 ^ 40 by omega)
    rw [HoppingSequence.positionAt_eq hh (by omega), hcount]
  have htimeslot : timeslot.toNat < length.toNat := timeslot_lt_length hs hlength hl
  rw [List.perm_ext_iff_of_nodup _ List.nodup_range]
  · intro i
    rw [List.mem_map, List.mem_range]
    constructor
    · rintro ⟨k, hk, rfl⟩
      obtain ⟨hchannels, -⟩ := HoppingSequence.ofChannels_eq_ok hh
      rw [← hchannels]
      exact h.positionAt_lt (.ofNat k) l.channelOffset
    · intro hi
      obtain ⟨k, hfirst, hlast, hkt, hki⟩ :=
        exists_mem_window hcoprime htimeslot hi first l.channelOffset.toNat
      have hk := (hmem k).2 ⟨Finset.mem_Ico.2 ⟨hfirst, hlast⟩, hkt⟩
      exact ⟨k, hk, (hposition k hk).trans hki⟩
  · refine List.Nodup.map_on ?_ (nodup_slotsOn s frame l first _)
    intro k hk k' hk' heq
    rw [hposition k hk, hposition k' hk'] at heq
    obtain ⟨hwindow, hkt⟩ := (hmem k).1 hk
    obtain ⟨hwindow', hkt'⟩ := (hmem k').1 hk'
    exact eq_of_mem_window hcoprime hwindow hwindow' (hkt.trans hkt'.symm) heq

/-- **Full rotation.**  A link of a well-formed schedule hops through channels whose number has no
common divisor with the length of its slotframe.  Then in every window of as many slots as their
product, which does not wrap even when the channel offset is added, the link is on once for each
position of the hopping sequence, and in these slots it reads each position once. -/
theorem full_rotation (hs : s.WellFormed) (hlength : s.length? frame = some length)
    (hl : s.link? frame timeslot = some l) (hh : HoppingSequence.ofChannels channels = .ok h)
    (hcoprime : length.toNat.Coprime channels.size)
    (hroom : first + length.toNat * channels.size + l.channelOffset.toNat ≤ 2 ^ 40) :
    (s.slotsOn frame l first (length.toNat * channels.size)).length = channels.size ∧
      ((s.slotsOn frame l first (length.toNat * channels.size)).map fun k =>
        h.positionAt (.ofNat k) l.channelOffset).Perm (List.range channels.size) ∧
      ∀ now, channels[h.positionAt now l.channelOffset]? =
        some (h.channelAt now l.channelOffset) := by
  have hperm := perm_positionAt hs hlength hl hh hcoprime hroom
  refine ⟨?_, hperm, ?_⟩
  · have hcount := hperm.length_eq
    rwa [List.length_map, List.length_range] at hcount
  · intro now
    obtain ⟨hchannels, -⟩ := HoppingSequence.ofChannels_eq_ok hh
    subst hchannels
    exact h.getElem?_positionAt now l.channelOffset

/-! The cell that all nodes share comes on every thirty-one slots, and there are sixteen channels.
The window is the last one that does not wrap. -/

/-- The link that all nodes share, as it is after a layout. -/
def sharedLink : Link := ⟨⟨.all, .normal, .broadcast, 1⟩, 1, 1, 0, none⟩

/-- Over sixteen turns before the slot numbers wrap, the shared cell takes every channel once. -/
theorem full_rotation_shared :
    ∃ s, (⟨.standard, 1, 8000⟩ : Planner).layOut.perform (.empty 4 32) = (s, .ok ()) ∧
      s.link? CellPlan.sharedFrame 0 = some sharedLink ∧
      (s.slotsOn CellPlan.sharedFrame sharedLink (2 ^ 40 - 497) 496).length = 16 ∧
      ((s.slotsOn CellPlan.sharedFrame sharedLink (2 ^ 40 - 497) 496).map fun k =>
        HoppingSequence.standard.positionAt (.ofNat k) 1).Perm (List.range 16) := by
  obtain ⟨s, hlayOut, hl⟩ :
      ∃ s, (⟨.standard, 1, 8000⟩ : Planner).layOut.perform (.empty 4 32) = (s, .ok ()) ∧
        s.link? CellPlan.sharedFrame 0 = some sharedLink := ⟨_, rfl, by decide +kernel⟩
  obtain ⟨hs, hlength, -⟩ := Planner.pristine_layOut hlayOut
  have hshared : s.length? CellPlan.sharedFrame = some 31 := hlength _
  have hhops : HoppingSequence.ofChannels HoppingSequence.defaultChannels = .ok .standard := rfl
  have hroom : 2 ^ 40 - 497 + (31 : UInt16).toNat * HoppingSequence.defaultChannels.size +
      sharedLink.channelOffset.toNat ≤ 2 ^ 40 := by decide
  obtain ⟨hcount, hperm, -⟩ := full_rotation hs.wellFormed hshared hl hhops (by decide) hroom
  exact ⟨s, hlayOut, hl, hcount, hperm⟩

end Schedule

end SlottedMesh
