import SlottedMesh.Proofs.Schedule.Table
import SlottedMesh.Schedule.Update

/-!
# Well-formed schedules

A schedule keeps some things twice: a slotframe knows the id under which it is found, a link knows
its place, a divisor keeps a remainder beside its length, and the number of links is kept beside the
links.  `Schedule.WellFormed` says that all of these agree and that neither capacity is exceeded.
The schedule without slotframes is well-formed, and every operation keeps it so.

All operations on links go through `Schedule.withLinks`, for which `WellFormed.withLinks` says once
what has to be shown: the new links know their places, and the count changes as their number does.
-/

namespace SlottedMesh

/-- A divisor that is made is that of the length, which is not zero. -/
theorem Divisor.of?_eq_ok {d : UInt16} {v : Divisor} (h : Divisor.of? d = .ok v) :
    ∃ hd : d ≠ 0, v = .ofLength d hd := by
  unfold of? at h
  split at h
  · cases h
  · rename_i hd
    cases h
    exact ⟨hd, rfl⟩

/-- The slotframe fits under an id: it knows the id, its divisor is that of its length, and its
links know their places. -/
structure Slotframe.Fits (f : Slotframe) (id : UInt16) : Prop where
  /-- The slotframe knows its id. -/
  id_eq : f.id = id
  /-- A slotframe has a timeslot. -/
  length_pos : 0 < f.length
  /-- The divisor is that of the length. -/
  divisor_eq : f.divisor = .ofLength f.length f.divisor.value_ne_zero
  /-- A link knows its slotframe. -/
  frame_eq {t : UInt16} {l : Link} : f.links.get? t = some l → l.frame = id
  /-- A link knows its timeslot. -/
  timeslot_eq {t : UInt16} {l : Link} : f.links.get? t = some l → l.timeslot = t
  /-- A link is at a timeslot of the slotframe. -/
  timeslot_lt {t : UInt16} {l : Link} : f.links.get? t = some l → t < f.length

namespace Schedule

/-- What the schedule keeps twice agrees, and neither capacity is exceeded. -/
structure WellFormed (s : Schedule) : Prop where
  /-- Each slotframe fits under its id. -/
  fits {id : UInt16} {f : Slotframe} : s.frame? id = some f → f.Fits id
  /-- There are no more slotframes than there may be. -/
  frames_le : s.frames.size ≤ s.maxFrames
  /-- The count is the number of links in all slotframes. -/
  linkCount_eq : s.linkCount = s.links.length
  /-- There are no more links than there may be. -/
  linkCount_le : s.linkCount ≤ s.maxLinks

/-! ## Views -/

/-- The length of the slotframe with this id. -/
def length? (s : Schedule) (id : UInt16) : Option UInt16 := (s.frame? id).map (·.length)

/-- A slotframe has a length. -/
theorem ne_zero_of_length?_eq_some {s : Schedule} {id length : UInt16}
    (h : s.length? id = some length) : length ≠ 0 := by
  obtain ⟨f, -, rfl⟩ := Option.map_eq_some_iff.1 h
  exact f.divisor.value_ne_zero

/-- A slotframe that gets other links is shown with them, and all others as they are. -/
theorem frame?_withLinks (s : Schedule) (id : UInt16) (f : Slotframe) (links : Table Link)
    (g : UInt16) :
    (s.withLinks id f links).frame? g = if g = id then some { f with links } else s.frame? g :=
  Table.get?_insert _ _ _ _

/-- Links of a slotframe do not change lengths. -/
theorem length?_withLinks {s : Schedule} {id : UInt16} {f : Slotframe} (hf : s.frame? id = some f)
    (links : Table Link) (g : UInt16) : (s.withLinks id f links).length? g = s.length? g := by
  simp only [length?, frame?_withLinks]
  split
  · rename_i hg
    rw [hg, hf]
    rfl
  · rfl

/-- A link is shown where a slotframe has it. -/
theorem link?_eq_some_iff {s : Schedule} {frame timeslot : UInt16} {l : Link} :
    s.link? frame timeslot = some l ↔
      ∃ f, s.frame? frame = some f ∧ f.links.get? timeslot = some l :=
  Option.bind_eq_some_iff

/-- The links are counted slotframe by slotframe. -/
theorem length_links (s : Schedule) : s.links.length = s.frames.weigh (·.links.size) := by
  unfold links Table.weigh
  rw [List.length_flatMap]
  simp only [Table.values, Table.size, List.length_map]

/-- Where links are changed, the number of links changes as that of the slotframe does. -/
theorem length_links_withLinks {s : Schedule} {id : UInt16} {f : Slotframe}
    (hf : s.frame? id = some f) (links : Table Link) :
    (s.withLinks id f links).links.length + f.links.size = s.links.length + links.size := by
  have hweigh := Table.weigh_insert (fun g : Slotframe => g.links.size) s.frames id { f with links }
  rw [show s.frames.get? id = some f from hf] at hweigh
  rw [length_links, length_links]
  exact hweigh

namespace WellFormed

variable {s s' : Schedule}

/-- A link that is shown knows its slotframe, -/
theorem frame_eq (h : s.WellFormed) {frame timeslot : UInt16} {l : Link}
    (hl : s.link? frame timeslot = some l) : l.frame = frame := by
  obtain ⟨f, hf, hl⟩ := link?_eq_some_iff.1 hl
  exact (h.fits hf).frame_eq hl

/-- and its timeslot. -/
theorem timeslot_eq (h : s.WellFormed) {frame timeslot : UInt16} {l : Link}
    (hl : s.link? frame timeslot = some l) : l.timeslot = timeslot := by
  obtain ⟨f, hf, hl⟩ := link?_eq_some_iff.1 hl
  exact (h.fits hf).timeslot_eq hl

/-! ## Operations on slotframes -/

/-- The schedule without slotframes is well-formed. -/
theorem empty (maxFrames maxLinks : Nat) : (Schedule.empty maxFrames maxLinks).WellFormed where
  fits hf := nomatch hf
  frames_le := Nat.zero_le _
  linkCount_eq := rfl
  linkCount_le := Nat.zero_le _

/-- So is one from which everything was taken out. -/
theorem clear (s : Schedule) : s.clear.WellFormed where
  fits hf := nomatch hf
  frames_le := Nat.zero_le _
  linkCount_eq := rfl
  linkCount_le := Nat.zero_le _

/-- The slotframe that is made has the divisor of its length and no links. -/
theorem addFrame (h : s.WellFormed) {id length : UInt16} {f : Slotframe}
    (hadd : s.addFrame id length = .ok (s', f)) : s'.WellFormed := by
  rw [addFrame_eq] at hadd
  split at hadd
  · cases hadd
  · rename_i hnone
    split at hadd
    · cases hadd
    · rename_i divisor hdivisor
      obtain ⟨hlength, rfl⟩ := Divisor.of?_eq_ok hdivisor
      split at hadd
      · cases hadd
      · rename_i hroom
        cases hadd
        have hnew : Slotframe.Fits ⟨id, .ofLength length hlength, .empty⟩ id :=
          { id_eq := rfl
            length_pos := UInt16.pos_iff_ne_zero.2 hlength
            divisor_eq := rfl
            frame_eq := fun hl => nomatch hl
            timeslot_eq := fun hl => nomatch hl
            timeslot_lt := fun hl => nomatch hl }
        refine ⟨fun {g f} hf => ?_, ?_, ?_, h.linkCount_le⟩
        · rw [Schedule.frame?, Table.get?_insert] at hf
          split at hf
          · rename_i hg
            cases hf
            exact hg ▸ hnew
          · exact h.fits hf
        · show (s.frames.insert id _).size ≤ s.maxFrames
          rw [Table.size_insert_of_none hnone]
          omega
        · have hweigh := Table.weigh_insert (fun g : Slotframe => g.links.size) s.frames id
            ⟨id, .ofLength length hlength, .empty⟩
          rw [show s.frames.get? id = none from hnone] at hweigh
          rw [length_links]
          show s.linkCount = (s.frames.insert id _).weigh _
          rw [h.linkCount_eq, length_links]
          exact hweigh.symm

/-- The links of the slotframe leave the count with it. -/
theorem removeFrame (h : s.WellFormed) {id : UInt16} {f : Slotframe}
    (hremove : s.removeFrame id = .ok (s', f)) : s'.WellFormed := by
  rw [removeFrame_eq] at hremove
  split at hremove
  · cases hremove
  · rename_i f hf
    cases hremove
    have hsize := Table.size_erase_of_some hf
    have hweigh := Table.weigh_erase (fun g : Slotframe => g.links.size) s.frames id
    rw [show s.frames.get? id = some f from hf] at hweigh
    have hcount : s.linkCount = s.frames.weigh (·.links.size) := by
      rw [h.linkCount_eq, length_links]
    have hframes := h.frames_le
    have hlinks := h.linkCount_le
    refine ⟨fun {g f'} hf' => ?_, ?_, ?_, ?_⟩
    · rw [Schedule.frame?, Table.get?_erase] at hf'
      split at hf'
      · cases hf'
      · exact h.fits hf'
    · show (s.frames.erase id).size ≤ s.maxFrames
      omega
    · rw [length_links]
      show s.linkCount - f.links.size = (s.frames.erase id).weigh _
      rw [hcount, ← hweigh]
      exact Nat.add_sub_cancel _ _
    · show s.linkCount - f.links.size ≤ s.maxLinks
      omega

/-! ## Operations on links -/

/-- The links of one slotframe are changed: the new ones know their places, and the count changes as
their number does. -/
theorem withLinks (h : s.WellFormed) {id : UInt16} {f : Slotframe} (hf : s.frame? id = some f)
    {links : Table Link}
    (hplace : ∀ {t : UInt16} {l : Link}, links.get? t = some l →
      l.frame = id ∧ l.timeslot = t ∧ t < f.length)
    {count : Nat} (hcount : count + f.links.size = s.linkCount + links.size)
    (hroom : count ≤ s.maxLinks) (handle : UInt32) :
    WellFormed { s.withLinks id f links with linkCount := count, nextHandle := handle } := by
  have hfits := h.fits hf
  refine ⟨fun {g f'} hf' => ?_, ?_, ?_, hroom⟩
  · have hf' : (s.withLinks id f links).frame? g = some f' := hf'
    rw [frame?_withLinks] at hf'
    split at hf'
    · rename_i hg
      cases hf'
      subst hg
      exact
        { id_eq := hfits.id_eq
          length_pos := hfits.length_pos
          divisor_eq := hfits.divisor_eq
          frame_eq := fun hl => (hplace hl).1
          timeslot_eq := fun hl => (hplace hl).2.1
          timeslot_lt := fun hl => (hplace hl).2.2 }
    · exact h.fits hf'
  · show (s.frames.insert id _).size ≤ s.maxFrames
    rw [Table.size_insert_of_some hf]
    exact h.frames_le
  · show count = (s.withLinks id f links).links.length
    have hlinks := length_links_withLinks hf links
    have hlinkCount := h.linkCount_eq
    omega

/-- A link at a timeslot is changed, but neither its place nor its number. -/
theorem insert_some (h : s.WellFormed) {id t : UInt16} {f : Slotframe} (hf : s.frame? id = some f)
    {old new : Link} (hold : f.links.get? t = some old) (hframe : new.frame = old.frame)
    (htimeslot : new.timeslot = old.timeslot) :
    (s.withLinks id f (f.links.insert t new)).WellFormed := by
  have hfits := h.fits hf
  refine h.withLinks hf (fun {u l} hl => ?_) ?_ h.linkCount_le s.nextHandle
  · rw [Table.get?_insert] at hl
    split at hl
    · rename_i hu
      cases hl
      rw [hframe, htimeslot, hu]
      exact ⟨hfits.frame_eq hold, hfits.timeslot_eq hold, hfits.timeslot_lt hold⟩
    · exact ⟨hfits.frame_eq hl, hfits.timeslot_eq hl, hfits.timeslot_lt hl⟩
  · rw [Table.size_insert_of_some hold]

/-- A link is taken out, and the count goes down by one. -/
theorem erase_some (h : s.WellFormed) {id t : UInt16} {f : Slotframe} (hf : s.frame? id = some f)
    {old : Link} (hold : f.links.get? t = some old) :
    WellFormed { s.withLinks id f (f.links.erase t) with linkCount := s.linkCount - 1 } := by
  have hfits := h.fits hf
  have hsize := Table.size_erase_of_some hold
  have hlinks := length_links_withLinks hf (f.links.erase t)
  have hlinkCount := h.linkCount_eq
  have hroom := h.linkCount_le
  refine h.withLinks hf (fun {u l} hl => ?_) ?_ ?_ s.nextHandle
  · rw [Table.get?_erase] at hl
    split at hl
    · cases hl
    · exact ⟨hfits.frame_eq hl, hfits.timeslot_eq hl, hfits.timeslot_lt hl⟩
  · omega
  · omega

/-- Putting a link keeps a schedule well-formed, by the count above all. -/
theorem putLink (h : s.WellFormed) {frame timeslot : UInt16} {a : Link.Attributes} {l : Link}
    (hput : s.putLink frame timeslot a = .ok (s', l)) : s'.WellFormed := by
  rw [putLink_eq] at hput
  split at hput
  · cases hput
  · rename_i f hf
    split at hput
    · cases hput
    · rename_i hrange
      split at hput
      · rename_i old hold
        cases hput
        exact h.insert_some hf hold rfl rfl
      · rename_i hnone
        split at hput
        · cases hput
        · rename_i hroom
          cases hput
          have hfits := h.fits hf
          refine h.withLinks hf (fun {u l} hl => ?_) ?_ (by omega) (s.nextHandle + 1)
          · rw [Table.get?_insert] at hl
            split at hl
            · rename_i hu
              cases hl
              exact ⟨rfl, hu.symm, hu ▸ UInt16.not_le.1 hrange⟩
            · exact ⟨hfits.frame_eq hl, hfits.timeslot_eq hl, hfits.timeslot_lt hl⟩
          · rw [Table.size_insert_of_none hnone]
            omega

/-- Making a link is putting one. -/
theorem addLink (h : s.WellFormed) {frame timeslot : UInt16} {a : Link.Attributes} {l : Link}
    (hadd : s.addLink frame timeslot a = .ok (s', l)) : s'.WellFormed := by
  rw [addLink_eq] at hadd
  split at hadd
  · cases hadd
  · exact h.putLink hadd

/-- Taking out a link by its handle keeps a schedule well-formed. -/
theorem removeLink (h : s.WellFormed) {frame : UInt16} {handle : UInt32} {l : Link}
    (hremove : s.removeLink frame handle = .ok (s', l)) : s'.WellFormed := by
  rw [removeLink_eq] at hremove
  split at hremove
  · cases hremove
  · rename_i f hf
    split at hremove
    · cases hremove
    · rename_i timeslot link hfind
      cases hremove
      exact h.erase_some hf (Table.get?_eq_some_iff.2 (List.mem_of_find?_eq_some hfind))

/-- Clearing a timeslot does, too. -/
theorem removeLinkAt (h : s.WellFormed) {frame timeslot : UInt16} {removed : Option Link}
    (hremove : s.removeLinkAt frame timeslot = .ok (s', removed)) : s'.WellFormed := by
  rw [removeLinkAt_eq] at hremove
  split at hremove
  · cases hremove
  · rename_i f hf
    split at hremove
    · cases hremove
      exact h
    · rename_i link hlink
      cases hremove
      exact h.erase_some hf hlink

/-- A lease does not touch what is kept twice. -/
theorem setLease (h : s.WellFormed) (frame timeslot : UInt16) (lease : Option Link.Lease) :
    (s.setLease frame timeslot lease).WellFormed := by
  unfold Schedule.setLease
  split
  · exact h
  · rename_i f hf
    split
    · exact h
    · rename_i link hlink
      exact h.insert_some hf hlink rfl rfl

end WellFormed

end Schedule

end SlottedMesh
