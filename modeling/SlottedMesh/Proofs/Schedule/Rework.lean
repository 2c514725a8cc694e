import SlottedMesh.Proofs.Schedule.WellFormed

/-!
# Changing links in place

Operations on links change one place.  `SetAt frame timeslot o s s'` says that `s'` is a well-formed
schedule that shows `o` at the place and elsewhere what `s` shows; `setAt_putLink`,
`setAt_removeLinkAt` and `setAt_setLease` say it of the operations.  `putLink_eq_ok_or_full` and
`removeLinkAt_eq_ok` say when operations at a timeslot of a slotframe succeed.

Sweeps and renewals go through the links of slotframes and change each link for itself.
`Reworked place rework s s'` says that `s'` is `s` with the links at some places reworked and all
else as it was.

* `reworked_removeLinkAt`, `reworked_putLink` and `reworked_setLease` say it of the operations on a
  place that has a link.
* `foldl_reworked` says it of a fold whose steps act on places apart from one another.
* `foldl_links_reworked` is the case of a fold over the links of a slotframe.
-/

namespace SlottedMesh.Schedule

/-- The slotframes and the capacities of one schedule are those of the other. -/
structure SameFrames (s s' : Schedule) : Prop where
  /-- The slotframes have the same lengths. -/
  length?_eq (g : UInt16) : s'.length? g = s.length? g
  /-- There is room for as many slotframes. -/
  maxFrames_eq : s'.maxFrames = s.maxFrames
  /-- There is room for as many links. -/
  maxLinks_eq : s'.maxLinks = s.maxLinks

/-- A schedule has its own slotframes. -/
theorem SameFrames.refl (s : Schedule) : SameFrames s s := ⟨fun _ => rfl, rfl, rfl⟩

/-- Slotframes that stay twice stay. -/
theorem SameFrames.trans {s s' s'' : Schedule} (h : SameFrames s s') (h' : SameFrames s' s'') :
    SameFrames s s'' where
  length?_eq g := (h'.length?_eq g).trans (h.length?_eq g)
  maxFrames_eq := h'.maxFrames_eq.trans h.maxFrames_eq
  maxLinks_eq := h'.maxLinks_eq.trans h.maxLinks_eq

/-- Other links of a slotframe, another count and another handle leave the slotframes. -/
theorem sameFrames_withLinks {s : Schedule} {id : UInt16} {f : Slotframe}
    (hf : s.frame? id = some f) (links : Table Link) (count : Nat) (handle : UInt32) :
    SameFrames s { s.withLinks id f links with linkCount := count, nextHandle := handle } :=
  ⟨length?_withLinks hf links, rfl, rfl⟩

/-! ## Setting a place -/

/-- The schedule `s'` shows `o` at one place and elsewhere what `s` shows. -/
structure SetAt (frame timeslot : UInt16) (o : Option Link) (s s' : Schedule) : Prop where
  /-- What is kept twice agrees. -/
  wellFormed : s'.WellFormed
  /-- The slotframes are the same. -/
  sameFrames : SameFrames s s'
  /-- The place shows `o`, and others show what they showed. -/
  link?_eq (g t : UInt16) : s'.link? g t = if g = frame ∧ t = timeslot then o else s.link? g t

/-- What a place shows when a link is put there: the link that is there with other attributes, or a
new one with this handle. -/
def placed (frame timeslot : UInt16) (handle : UInt32) (a : Link.Attributes) : Option Link → Link
  | some old => { old with toAttributes := a }
  | none => { a with handle, frame, timeslot, lease := none }

/-- A link that is placed has the attributes it was placed with. -/
@[simp] theorem toAttributes_placed (frame timeslot : UInt16) (handle : UInt32)
    (a : Link.Attributes) (o : Option Link) :
    (placed frame timeslot handle a o).toAttributes = a := by
  cases o <;> rfl

/-- Putting a link changes its place and nothing else, and says what the link is. -/
theorem setAt_putLink {s s' : Schedule} {frame timeslot : UInt16} {a : Link.Attributes} {l : Link}
    (hs : s.WellFormed) (hput : s.putLink frame timeslot a = .ok (s', l)) :
    l = placed frame timeslot s.nextHandle a (s.link? frame timeslot) ∧
      SetAt frame timeslot (some l) s s' := by
  have hwellFormed := hs.putLink hput
  have hlink := link?_putLink hput
  rw [putLink_eq] at hput
  split at hput
  · cases hput
  · rename_i f hf
    rw [link?_eq_get? hf]
    split at hput
    · cases hput
    · split at hput
      · rename_i hold
        cases hput
        rw [hold]
        exact ⟨rfl, hwellFormed, sameFrames_withLinks hf _ _ _, hlink⟩
      · rename_i hnone
        split at hput
        · cases hput
        · cases hput
          rw [hnone]
          exact ⟨rfl, hwellFormed, sameFrames_withLinks hf _ _ _, hlink⟩

/-- A link is refused only where there is none. -/
theorem link?_of_putLink_error {s : Schedule} {frame timeslot : UInt16} {a : Link.Attributes}
    {e : ScheduleError} (hs : s.WellFormed) (hput : s.putLink frame timeslot a = .error e) :
    s.link? frame timeslot = none := by
  rw [putLink_eq] at hput
  split at hput
  · rename_i hf
    simp [link?, hf]
  · rename_i f hf
    rw [link?_eq_get? hf]
    split at hput
    · rename_i hrange
      cases hget : f.links.get? timeslot with
      | none => rfl
      | some l => exact absurd ((hs.fits hf).timeslot_lt hget) (UInt16.not_lt.2 hrange)
    · split at hput
      · cases hput
      · assumption

/-- At a timeslot of a slotframe a link is put, unless there is none yet and no room for one. -/
theorem putLink_eq_ok_or_full {s : Schedule} {frame timeslot length : UInt16}
    (hlength : s.length? frame = some length) (htimeslot : timeslot < length)
    (a : Link.Attributes) :
    (∃ s' l, s.putLink frame timeslot a = .ok (s', l)) ∨
      s.putLink frame timeslot a = .error (.full .link s.maxLinks) ∧
        s.link? frame timeslot = none ∧ s.maxLinks ≤ s.linkCount := by
  obtain ⟨f, hf, rfl⟩ := Option.map_eq_some_iff.1 hlength
  rw [link?_eq_get? hf]
  rw [putLink_eq]
  simp only [hf, if_neg (UInt16.not_le.2 htimeslot)]
  cases hget : f.links.get? timeslot with
  | some old => exact .inl ⟨_, _, rfl⟩
  | none =>
    by_cases hfull : s.maxLinks ≤ s.linkCount
    · exact .inr ⟨if_pos hfull, rfl, hfull⟩
    · exact .inl ⟨_, _, if_neg hfull⟩

/-- In a slotframe a timeslot can be cleared; the number of links does not grow. -/
theorem removeLinkAt_eq_ok {s : Schedule} {frame length : UInt16}
    (hlength : s.length? frame = some length) (timeslot : UInt16) :
    ∃ s' removed, s.removeLinkAt frame timeslot = .ok (s', removed) ∧
      s'.linkCount ≤ s.linkCount := by
  obtain ⟨f, hf, rfl⟩ := Option.map_eq_some_iff.1 hlength
  rw [removeLinkAt_eq]
  simp only [hf]
  cases f.links.get? timeslot with
  | none => exact ⟨s, none, rfl, Nat.le_refl _⟩
  | some l => exact ⟨_, some l, rfl, Nat.sub_le _ _⟩

/-- Clearing a timeslot changes its place and nothing else. -/
theorem setAt_removeLinkAt {s s' : Schedule} {frame timeslot : UInt16} {removed : Option Link}
    (hs : s.WellFormed) (hremove : s.removeLinkAt frame timeslot = .ok (s', removed)) :
    SetAt frame timeslot none s s' := by
  have hwellFormed := hs.removeLinkAt hremove
  have hlink := (link?_removeLinkAt hremove).2
  refine ⟨hwellFormed, ?_, hlink⟩
  rw [removeLinkAt_eq] at hremove
  split at hremove
  · cases hremove
  · rename_i f hf
    split at hremove
    · cases hremove
      exact .refl s
    · cases hremove
      exact sameFrames_withLinks hf _ _ _

/-- Setting a lease changes its place and nothing else. -/
theorem setAt_setLease {s : Schedule} (hs : s.WellFormed) (frame timeslot : UInt16)
    (lease : Option Link.Lease) :
    SetAt frame timeslot ((s.link? frame timeslot).map ({ · with lease })) s
      (s.setLease frame timeslot lease) := by
  refine ⟨hs.setLease frame timeslot lease, ?_, fun g t => ?_⟩
  · unfold setLease
    split
    · exact .refl s
    · rename_i f hf
      split
      · exact .refl s
      · exact sameFrames_withLinks hf _ _ _
  · rw [link?_setLease]
    split
    · rename_i hgt
      rw [hgt.1, hgt.2]
    · rfl

/-- A place is set to what it shows already. -/
theorem setAt_self {s : Schedule} (hs : s.WellFormed) (frame timeslot : UInt16) :
    SetAt frame timeslot (s.link? frame timeslot) s s := by
  refine ⟨hs, .refl s, fun g t => ?_⟩
  split
  · rename_i hgt
    rw [hgt.1, hgt.2]
  · rfl

/-- What a place was set to in between is lost. -/
theorem SetAt.trans {s s' s'' : Schedule} {frame timeslot : UInt16} {o o' : Option Link}
    (h : SetAt frame timeslot o s s') (h' : SetAt frame timeslot o' s' s'') :
    SetAt frame timeslot o' s s'' where
  wellFormed := h'.wellFormed
  sameFrames := h.sameFrames.trans h'.sameFrames
  link?_eq g t := by
    rw [h'.link?_eq]
    split
    · rfl
    · rename_i hne
      rw [h.link?_eq, if_neg hne]

/-- The place shows what was set there. -/
theorem SetAt.link?_self {s s' : Schedule} {frame timeslot : UInt16} {o : Option Link}
    (h : SetAt frame timeslot o s s') : s'.link? frame timeslot = o := by
  rw [h.link?_eq, if_pos ⟨rfl, rfl⟩]

/-! ## Reworking places -/

/-- At some places the links of `s` are reworked in `s'`; all else is as it was. -/
structure Reworked (place : UInt16 → UInt16 → Prop) (rework : Link → Option Link)
    (s s' : Schedule) : Prop where
  /-- What is kept twice agrees still. -/
  wellFormed : s'.WellFormed
  /-- The slotframes are the same. -/
  sameFrames : SameFrames s s'
  /-- No handle was given out. -/
  nextHandle_eq : s'.nextHandle = s.nextHandle
  /-- The links at the places are reworked, or taken out. -/
  link?_of {g t : UInt16} : place g t → s'.link? g t = (s.link? g t).bind rework
  /-- Other links are as they were. -/
  link?_of_not {g t : UInt16} : ¬place g t → s'.link? g t = s.link? g t

/-- A place of its own. -/
def At (frame timeslot g t : UInt16) : Prop := g = frame ∧ t = timeslot

variable {s s' s'' : Schedule} {place place' : UInt16 → UInt16 → Prop}
  {rework rework' : Link → Option Link} {frame timeslot : UInt16} {l : Link}

/-- Where there are no links, nothing has to be done. -/
theorem reworked_of_vacant (hs : s.WellFormed) (hvacant : ∀ g t, place g t → s.link? g t = none) :
    Reworked place rework s s where
  wellFormed := hs
  sameFrames := .refl s
  nextHandle_eq := rfl
  link?_of {g t} hplace := by rw [hvacant g t hplace]; rfl
  link?_of_not _ := rfl

/-- Links that stay as they are may be left alone. -/
theorem reworked_of_kept (hs : s.WellFormed) (hl : s.link? frame timeslot = some l)
    (hkept : rework l = some l) : Reworked (At frame timeslot) rework s s where
  wellFormed := hs
  sameFrames := .refl s
  nextHandle_eq := rfl
  link?_of {g t} hplace := by
    obtain ⟨rfl, rfl⟩ := hplace
    rw [hl, Option.bind_some, hkept]
  link?_of_not _ := rfl

/-- Only what is made of the links that are there counts. -/
theorem Reworked.congr_rework (h : Reworked place rework s s')
    (heq : ∀ g t l, place g t → s.link? g t = some l → rework l = rework' l) :
    Reworked place rework' s s' where
  wellFormed := h.wellFormed
  sameFrames := h.sameFrames
  nextHandle_eq := h.nextHandle_eq
  link?_of {g t} hplace := by
    rw [h.link?_of hplace]
    cases hl : s.link? g t with
    | none => rfl
    | some l => exact heq g t l hplace hl
  link?_of_not := h.link?_of_not

/-- At one place only what is made of the link there counts. -/
theorem Reworked.congr_at (h : Reworked (At frame timeslot) rework s s')
    (hl : s.link? frame timeslot = some l) (heq : rework l = rework' l) :
    Reworked (At frame timeslot) rework' s s' := by
  refine h.congr_rework fun g t l' hplace hl' => ?_
  obtain ⟨rfl, rfl⟩ := hplace
  rw [hl] at hl'
  cases hl'
  exact heq

/-- It does not matter how the places are told. -/
theorem Reworked.congr_place (h : Reworked place rework s s')
    (heq : ∀ g t, place g t ↔ place' g t) : Reworked place' rework s s' where
  wellFormed := h.wellFormed
  sameFrames := h.sameFrames
  nextHandle_eq := h.nextHandle_eq
  link?_of hplace := h.link?_of ((heq _ _).2 hplace)
  link?_of_not hplace := h.link?_of_not fun hplace' => hplace ((heq _ _).1 hplace')

/-- A place that has a link is set to what becomes of the link. -/
theorem reworked_of_setAt (hl : s.link? frame timeslot = some l)
    (h : SetAt frame timeslot (rework l) s s') (hhandle : s'.nextHandle = s.nextHandle) :
    Reworked (At frame timeslot) rework s s' where
  wellFormed := h.wellFormed
  sameFrames := h.sameFrames
  nextHandle_eq := hhandle
  link?_of hplace := by
    obtain ⟨rfl, rfl⟩ := hplace
    rw [h.link?_self, hl]
    rfl
  link?_of_not hplace := by
    rw [h.link?_eq]
    exact if_neg hplace

/-- A link that is there can be taken out. -/
theorem reworked_removeLinkAt (hs : s.WellFormed) (hl : s.link? frame timeslot = some l) :
    ∃ s', s.removeLinkAt frame timeslot = .ok (s', some l) ∧
      Reworked (At frame timeslot) (fun _ => none) s s' := by
  obtain ⟨f, hf, hget⟩ := link?_eq_some_iff.1 hl
  have hremove : s.removeLinkAt frame timeslot =
      .ok ({ s.withLinks frame f (f.links.erase timeslot) with linkCount := s.linkCount - 1 },
        some l) := by
    rw [removeLinkAt_eq]
    rw [hf]
    simp only [hget]
  exact ⟨_, hremove, reworked_of_setAt hl (setAt_removeLinkAt hs hremove) rfl⟩

/-- A link that is there can be given other attributes. -/
theorem reworked_putLink (hs : s.WellFormed) (hl : s.link? frame timeslot = some l)
    (a : Link.Attributes) :
    ∃ s', s.putLink frame timeslot a = .ok (s', { l with toAttributes := a }) ∧
      Reworked (At frame timeslot) (fun l => some { l with toAttributes := a }) s s' := by
  obtain ⟨f, hf, hget⟩ := link?_eq_some_iff.1 hl
  have hrange : ¬f.length ≤ timeslot := UInt16.not_le.2 ((hs.fits hf).timeslot_lt hget)
  have hput : s.putLink frame timeslot a =
      .ok (s.withLinks frame f (f.links.insert timeslot { l with toAttributes := a }),
        { l with toAttributes := a }) := by
    rw [putLink_eq]
    rw [hf]
    simp only [hrange, if_false, hget]
  exact ⟨_, hput, reworked_of_setAt hl (setAt_putLink hs hput).2 rfl⟩

/-- To set a lease takes no handle. -/
theorem nextHandle_setLease (s : Schedule) (frame timeslot : UInt16) (lease : Option Link.Lease) :
    (s.setLease frame timeslot lease).nextHandle = s.nextHandle := by
  unfold setLease
  split
  · rfl
  · split <;> rfl

/-- A link that is there can be given another lease. -/
theorem reworked_setLease (hs : s.WellFormed) (hl : s.link? frame timeslot = some l)
    (lease : Option Link.Lease) :
    Reworked (At frame timeslot) (fun l => some { l with lease }) s
      (s.setLease frame timeslot lease) := by
  have hset := setAt_setLease hs frame timeslot lease
  rw [hl] at hset
  exact reworked_of_setAt hl hset (nextHandle_setLease s frame timeslot lease)

/-! ## Many places -/

/-- Two works on places apart from one another are one. -/
theorem Reworked.union (h : Reworked place rework s s') (h' : Reworked place' rework s' s'')
    (hapart : ∀ g t, place g t → ¬place' g t) :
    Reworked (fun g t => place g t ∨ place' g t) rework s s'' where
  wellFormed := h'.wellFormed
  sameFrames := h.sameFrames.trans h'.sameFrames
  nextHandle_eq := h'.nextHandle_eq.trans h.nextHandle_eq
  link?_of {g t} hplace := by
    rcases hplace with hplace | hplace
    · rw [h'.link?_of_not (hapart g t hplace), h.link?_of hplace]
    · rw [h'.link?_of hplace, h.link?_of_not fun hplace' => hapart g t hplace' hplace]
  link?_of_not hplace := by
    rw [not_or] at hplace
    rw [h'.link?_of_not hplace.2, h.link?_of_not hplace.1]

/-- A fold whose steps act on places apart from one another reworks all of these places.  A step
finds its places as they were at the beginning. -/
theorem foldl_reworked {ι β : Type} (view : β → Schedule) {act : β → ι → β}
    (place : ι → UInt16 → UInt16 → Prop) {xs : List ι}
    (hapart : xs.Pairwise fun x y => ∀ g t, place x g t → ¬place y g t) (s : Schedule)
    (hact : ∀ x ∈ xs, ∀ b, (view b).WellFormed →
      (∀ g t, place x g t → (view b).link? g t = s.link? g t) →
      Reworked (place x) rework (view b) (view (act b x)))
    (b : β) (hb : (view b).WellFormed)
    (hview : ∀ x ∈ xs, ∀ g t, place x g t → (view b).link? g t = s.link? g t) :
    Reworked (fun g t => ∃ x ∈ xs, place x g t) rework (view b) (view (xs.foldl act b)) := by
  induction xs generalizing b with
  | nil =>
    refine reworked_of_vacant hb fun g t hplace => ?_
    obtain ⟨x, hx, _⟩ := hplace
    cases hx
  | cons x xs ih =>
    obtain ⟨hx, hapart⟩ := List.pairwise_cons.1 hapart
    have hfirst := hact x (List.mem_cons_self ..) b hb (hview x (List.mem_cons_self ..))
    -- what the first step does is apart from the places of the later ones
    have hrest : ∀ y ∈ xs, ∀ g t, place y g t → (view (act b x)).link? g t = s.link? g t := by
      intro y hy g t hplace
      rw [hfirst.link?_of_not fun hplace' => hx y hy g t hplace' hplace]
      exact hview y (List.mem_cons_of_mem _ hy) g t hplace
    have hlater := ih hapart (fun y hy => hact y (List.mem_cons_of_mem _ hy)) (act b x)
      hfirst.wellFormed hrest
    refine (hfirst.union hlater ?_).congr_place fun g t => ?_
    · rintro g t hplace ⟨y, hy, hplace'⟩
      exact hx y hy g t hplace hplace'
    · simp only [List.mem_cons, exists_eq_or_imp]

/-- The links of a slotframe are at timeslots of their own. -/
theorem WellFormed.pairwise_timeslot (hs : s.WellFormed) {f : Slotframe}
    (hf : s.frame? frame = some f) :
    f.links.values.Pairwise fun l l' => l.timeslot ≠ l'.timeslot := by
  have hfits := hs.fits hf
  rw [Table.values, List.pairwise_map]
  refine f.links.ascending.imp_of_mem fun {e e'} he he' hlt heq => ?_
  rw [hfits.timeslot_eq (Table.get?_eq_some_iff.2 he),
    hfits.timeslot_eq (Table.get?_eq_some_iff.2 he')] at heq
  exact UInt16.ne_of_lt hlt heq

/-- A link of a slotframe is at its timeslot. -/
theorem WellFormed.link?_of_mem_values (hs : s.WellFormed) {f : Slotframe}
    (hf : s.frame? frame = some f) (hl : l ∈ f.links.values) :
    s.link? frame l.timeslot = some l := by
  obtain ⟨t, ht⟩ := Table.mem_values_iff.1 hl
  rw [link?_eq_get? hf, (hs.fits hf).timeslot_eq ht, ht]

/-- A fold over the links of a slotframe whose steps act on one link each reworks the frame. -/
theorem foldl_links_reworked {β : Type} (view : β → Schedule) {act : β → Link → β} {b : β}
    {f : Slotframe} (hb : (view b).WellFormed) (hf : (view b).frame? frame = some f)
    (hact : ∀ (b : β) (l : Link), (view b).WellFormed → (view b).link? frame l.timeslot = some l →
      Reworked (At frame l.timeslot) rework (view b) (view (act b l))) :
    Reworked (fun g _ => g = frame) rework (view b) (view (f.links.values.foldl act b)) := by
  have hlink : ∀ l ∈ f.links.values, (view b).link? frame l.timeslot = some l :=
    fun l hl => hb.link?_of_mem_values hf hl
  have hfold := foldl_reworked view (fun l : Link => At frame l.timeslot)
    ((hb.pairwise_timeslot hf).imp fun hne g t hplace hplace' =>
      hne (hplace.2.symm.trans hplace'.2))
    (view b) (fun l hl b' hb' hview => hact b' l hb' (by rw [hview _ _ ⟨rfl, rfl⟩, hlink l hl]))
    b hb fun _ _ _ _ _ => rfl
  -- where the slotframe has no link, there is nothing to rework
  refine ⟨hfold.wellFormed, hfold.sameFrames, hfold.nextHandle_eq, ?_, ?_⟩
  · rintro g t rfl
    cases hget : (view b).link? g t with
    | none =>
      have hvacant : ¬∃ l ∈ f.links.values, At g l.timeslot g t := by
        rintro ⟨l, hl, -, rfl⟩
        rw [hlink l hl] at hget
        cases hget
      rw [hfold.link?_of_not hvacant, hget]
      rfl
    | some l =>
      have hmem : l ∈ f.links.values :=
        Table.mem_values_iff.2 ⟨t, by rw [← link?_eq_get? hf, hget]⟩
      rw [hfold.link?_of ⟨l, hmem, rfl, (hb.timeslot_eq hget).symm⟩, hget]
  · intro g t hne
    refine hfold.link?_of_not ?_
    rintro ⟨l, _, hplace, _⟩
    exact hne hplace

end SlottedMesh.Schedule
