import Mathlib.Data.List.Nodup
import SlottedMesh.Proofs.Schedule.CellMap
import SlottedMesh.Proofs.Schedule.Rework

/-!
# Handles of links

A link is known by its handle.  Handles come from one count for all slotframes, which goes on
through the removal of slotframes and through `clear`, and which returns to where it began only
after `2 ^ 32` links.

What a link is does not rest on handles here: a link is made by an operation that puts one at a
vacant place (`Operation.made?`), and is there as long as its place holds a link (`Holds`), since a
link that is put where there is one takes its place with the handle and the lease that are there.

* `CellMap.Keeps` and `CellMap.Makes` say all that an operation can do to handles, and
  `perform_cases` says that it does one of them.
* `CellMap.Numbered` is the invariant: handles have been given up to a number, each to one place.
* `handles_of_run` is the main statement: handles are never given twice, and to take out a link by
  its handle takes out the link that was made with it or, if that is gone, nothing.
-/

namespace SlottedMesh

namespace CellMap

/-! ## What an operation does to handles -/

/-- No link of `m'` is new: each was at its place in `m`, under the same handle. -/
structure Keeps (m m' : CellMap) : Prop where
  /-- No handle was given. -/
  nextHandle_eq : m'.nextHandle = m.nextHandle
  /-- What is at a place was there. -/
  exists_cells {g t : UInt16} {e' : Entry} :
    m'.cells g t = some e' → ∃ e, m.cells g t = some e ∧ e.handle = e'.handle

/-- One link of `m'` is new, at a place that was vacant, and has the handle that was next. -/
structure Makes (g t : UInt16) (m m' : CellMap) : Prop where
  /-- There was no link at the place. -/
  vacant : m.cells g t = none
  /-- One handle was given. -/
  nextHandle_eq : m'.nextHandle = m.nextHandle + 1
  /-- It was given to the link at the place. -/
  exists_cells : ∃ e, m'.cells g t = some e ∧ e.handle = m.nextHandle
  /-- Other places are as they were. -/
  cells_eq {g' t' : UInt16} : ¬(g' = g ∧ t' = t) → m'.cells g' t' = m.cells g' t'

variable {m m' : CellMap}

/-- What is left alone is kept. -/
theorem Keeps.refl (m : CellMap) : Keeps m m := ⟨rfl, fun h => ⟨_, h, rfl⟩⟩

/-- Making a slotframe or taking one out makes no link. -/
theorem keeps_setFrame (m : CellMap) (id : UInt16) (length : Option UInt16) :
    Keeps m (m.setFrame id length) := by
  refine ⟨rfl, fun {g t e'} h => ?_⟩
  simp only [setFrame] at h
  split at h
  · cases h
  · exact ⟨e', h, rfl⟩

/-- No link is new if what a place is set to has the handle of what is there. -/
theorem keeps_setCell {frame timeslot : UInt16} {o : Option Entry}
    (ho : ∀ e', o = some e' → ∃ e, m.cells frame timeslot = some e ∧ e.handle = e'.handle) :
    Keeps m (m.setCell frame timeslot o) := by
  refine ⟨rfl, fun {g t e'} h => ?_⟩
  simp only [setCell] at h
  split at h
  · rename_i hgt
    rw [hgt.1, hgt.2]
    exact ho e' h
  · exact ⟨e', h, rfl⟩

/-- Taking out a link makes none. -/
theorem keeps_setCell_none (m : CellMap) (frame timeslot : UInt16) :
    Keeps m (m.setCell frame timeslot none) :=
  keeps_setCell fun _ h => nomatch h

/-- A link is put where there is one, or one is made. -/
theorem putLink_cases (maxLinks : Nat) (m : CellMap) (frame timeslot : UInt16)
    (a : Link.Attributes) :
    Keeps m (m.putLink maxLinks frame timeslot a).1 ∨
      Makes frame timeslot m (m.putLink maxLinks frame timeslot a).1 := by
  unfold putLink
  split
  · exact .inl (.refl m)
  · split
    · exact .inl (.refl m)
    · split
      · rename_i old hold
        refine .inl (keeps_setCell fun e' he' => ⟨old, hold, ?_⟩)
        cases he'
        rfl
      · rename_i hvacant
        split
        · exact .inl (.refl m)
        · refine .inr ⟨hvacant, rfl, ⟨⟨a, m.nextHandle, none⟩, ?_, rfl⟩, ?_⟩
          · simp [setCell]
          · intro g' t' hne
            exact if_neg hne

/-! ## The invariant -/

/-- The first `n` handles have been given, and each is at one place at most. -/
structure Numbered (n : Nat) (m : CellMap) : Prop where
  /-- The next handle is the one that follows. -/
  nextHandle_eq : m.nextHandle = .ofNat n
  /-- The handle of a link has been given. -/
  handle_lt {g t : UInt16} {e : Entry} : m.cells g t = some e → e.handle.toNat < n
  /-- Links at different places have different handles. -/
  place_eq {g t g' t' : UInt16} {e e' : Entry} : m.cells g t = some e → m.cells g' t' = some e' →
    e.handle = e'.handle → g = g' ∧ t = t'

/-- No link has this handle. -/
def Absent (handle : UInt32) (m : CellMap) : Prop :=
  ∀ g t e, m.cells g t = some e → e.handle ≠ handle

variable {n : Nat} {handle : UInt32} {g t : UInt16}

/-- Without links no handle was given. -/
theorem numbered_empty : Numbered 0 .empty where
  nextHandle_eq := rfl
  handle_lt h := nomatch h
  place_eq h := nomatch h

/-- As long as the handles have not wrapped, the next one tells how many were given. -/
theorem Numbered.toNat_nextHandle (h : Numbered n m) (hn : n < 2 ^ 32) :
    m.nextHandle.toNat = n := by
  rw [h.nextHandle_eq, UInt32.toNat_ofNat', Nat.mod_eq_of_lt hn]

/-- Where no link is made, no handle is given. -/
theorem Numbered.keeps (h : Numbered n m) (hkeeps : Keeps m m') : Numbered n m' where
  nextHandle_eq := hkeeps.nextHandle_eq.trans h.nextHandle_eq
  handle_lt he' := by
    obtain ⟨e, he, hhandle⟩ := hkeeps.exists_cells he'
    rw [← hhandle]
    exact h.handle_lt he
  place_eq he₁' he₂' heq := by
    obtain ⟨e₁, he₁, hhandle₁⟩ := hkeeps.exists_cells he₁'
    obtain ⟨e₂, he₂, hhandle₂⟩ := hkeeps.exists_cells he₂'
    exact h.place_eq he₁ he₂ (hhandle₁.trans (heq.trans hhandle₂.symm))

/-- A link of `m'` is the new one or was there. -/
theorem Makes.cells_cases (h : Makes g t m m') {g' t' : UInt16} {e' : Entry}
    (he' : m'.cells g' t' = some e') :
    (g' = g ∧ t' = t ∧ e'.handle = m.nextHandle) ∨ m.cells g' t' = some e' := by
  by_cases hplace : g' = g ∧ t' = t
  · obtain ⟨rfl, rfl⟩ := hplace
    obtain ⟨e, he, hhandle⟩ := h.exists_cells
    rw [he] at he'
    cases he'
    exact .inl ⟨rfl, rfl, hhandle⟩
  · rw [h.cells_eq hplace] at he'
    exact .inr he'

/-- The next handle is not among those that were given. -/
theorem Numbered.handle_ne (h : Numbered n m) (hn : n < 2 ^ 32) {e : Entry}
    (he : m.cells g t = some e) : e.handle ≠ m.nextHandle := by
  intro heq
  have hlt := h.handle_lt he
  rw [heq, h.toNat_nextHandle hn] at hlt
  exact Nat.lt_irrefl n hlt

/-- A link that is made has a handle that no other has. -/
theorem Numbered.makes (h : Numbered n m) (hn : n < 2 ^ 32) (hmakes : Makes g t m m') :
    Numbered (n + 1) m' where
  nextHandle_eq := by
    rw [hmakes.nextHandle_eq, h.nextHandle_eq, UInt32.ofNat_add]
    rfl
  handle_lt he' := by
    rcases hmakes.cells_cases he' with ⟨-, -, hhandle⟩ | he
    · rw [hhandle, h.toNat_nextHandle hn]
      exact Nat.lt_succ_self n
    · exact Nat.lt_succ_of_lt (h.handle_lt he)
  place_eq he₁' he₂' heq := by
    rcases hmakes.cells_cases he₁' with ⟨rfl, rfl, hhandle₁⟩ | he₁ <;>
      rcases hmakes.cells_cases he₂' with ⟨rfl, rfl, hhandle₂⟩ | he₂
    · exact ⟨rfl, rfl⟩
    · exact absurd (heq.symm.trans hhandle₁) (h.handle_ne hn he₂)
    · exact absurd (heq.trans hhandle₂) (h.handle_ne hn he₁)
    · exact h.place_eq he₁ he₂ heq

/-- A handle that is gone does not come back where no link is made. -/
theorem Absent.keeps (h : Absent handle m) (hkeeps : Keeps m m') : Absent handle m' := by
  intro g t e' he'
  obtain ⟨e, he, hhandle⟩ := hkeeps.exists_cells he'
  rw [← hhandle]
  exact h g t e he

/-- A handle that was given is not given again. -/
theorem Absent.makes (h : Absent handle m) (hm : Numbered n m) (hn : n < 2 ^ 32)
    (hgiven : handle.toNat < n) (hmakes : Makes g t m m') : Absent handle m' := by
  intro g' t' e' he'
  rcases hmakes.cells_cases he' with ⟨-, -, hhandle⟩ | he
  · rintro rfl
    rw [hhandle, hm.toNat_nextHandle hn] at hgiven
    exact Nat.lt_irrefl n hgiven
  · exact h g' t' e' he

end CellMap

namespace Schedule

/-! ## Links that are made -/

/-- The place at which an operation puts a link. -/
def Operation.place? : Operation → Option (UInt16 × UInt16)
  | putLink frame timeslot _ | addLink frame timeslot _ => some (frame, timeslot)
  | _ => none

/-- The link that an operation makes: what it puts at a place, if that was vacant. -/
def Operation.made? (s : Schedule) (op : Operation) : Option Link :=
  op.place?.bind fun place =>
    if (s.link? place.1 place.2).isSome then none else (op.perform s).1.link? place.1 place.2

/-- The links that a run makes, in the order in which they are made. -/
def made (s : Schedule) : List Operation → List Link
  | [] => []
  | op :: ops => (op.made? s).toList ++ (op.perform s).1.made ops

/-- The place has a link, and keeps having one after each of the operations. -/
def Holds (s : Schedule) (g t : UInt16) : List Operation → Prop
  | [] => (s.link? g t).isSome
  | op :: ops => (s.link? g t).isSome ∧ (op.perform s).1.Holds g t ops

instance decidableHolds (s : Schedule) (g t : UInt16) :
    (ops : List Operation) → Decidable (s.Holds g t ops)
  | [] => inferInstanceAs (Decidable (_ = true))
  | op :: ops => @instDecidableAnd _ _ _ (decidableHolds (op.perform s).1 g t ops)

/-- A link with this handle is not taken out of the slotframe: the operation is refused, and the
schedule stays as it is. -/
def Refuses (s : Schedule) (frame : UInt16) (handle : UInt32) : Prop :=
  ∃ e, (Operation.removeLink frame handle).perform s = (s, .error e)

/-- A run goes on from where its first part ended. -/
theorem fst_run_append (s : Schedule) (xs ys : List Operation) :
    (s.run (xs ++ ys)).1 = ((s.run xs).1.run ys).1 := by
  induction xs generalizing s with
  | nil => rfl
  | cons op xs ih => exact ih (op.perform s).1

/-- The links that a run makes are those of its first part and those of the rest. -/
theorem made_append (s : Schedule) (xs ys : List Operation) :
    s.made (xs ++ ys) = s.made xs ++ (s.run xs).1.made ys := by
  induction xs generalizing s with
  | nil => rfl
  | cons op xs ih =>
    simp only [List.cons_append, made, run, ih, List.append_assoc]

/-- All that an operation can do to handles, by what it makes of the map. -/
theorem Operation.prescribed_cases (maxFrames maxLinks : Nat) (m : CellMap) (op : Operation) :
    CellMap.Keeps m (op.prescribed maxFrames maxLinks m).1 ∨
      ∃ g t, op.place? = some (g, t) ∧
        CellMap.Makes g t m (op.prescribed maxFrames maxLinks m).1 := by
  cases op with
  | addFrame id length =>
    left
    simp only [prescribed]
    repeat' split
    all_goals first | exact .refl m | exact CellMap.keeps_setFrame m _ _
  | removeFrame id =>
    left
    simp only [prescribed]
    split
    · exact .refl m
    · exact CellMap.keeps_setFrame m _ _
  | clear =>
    refine .inl ⟨rfl, fun h => ?_⟩
    cases h
  | putLink frame timeslot a =>
    refine (CellMap.putLink_cases maxLinks m frame timeslot a).imp_right fun hmakes => ?_
    exact ⟨frame, timeslot, rfl, hmakes⟩
  | addLink frame timeslot a =>
    simp only [prescribed]
    split
    · exact .inl (.refl m)
    · refine (CellMap.putLink_cases maxLinks m frame timeslot a).imp_right fun hmakes => ?_
      exact ⟨frame, timeslot, rfl, hmakes⟩
  | removeLink frame handle =>
    left
    simp only [prescribed]
    repeat' split
    all_goals first | exact .refl m | exact CellMap.keeps_setCell_none m _ _
  | removeLinkAt frame timeslot =>
    left
    simp only [prescribed]
    split
    · exact .refl m
    · exact CellMap.keeps_setCell_none m _ _
  | setLease frame timeslot lease =>
    refine .inl (CellMap.keeps_setCell fun e' he' => ?_)
    obtain ⟨e, he, rfl⟩ := Option.map_eq_some_iff.1 he'
    exact ⟨e, he, rfl⟩

/-- The map has the entry of a link that is shown. -/
theorem cells_eq_some {s : Schedule} {g t : UInt16} {l : Link} (hl : s.link? g t = some l) :
    s.cellMap.cells g t = some l.entry := by
  simp [cellMap, hl]

/-- The map has nothing where no link is shown. -/
theorem cells_eq_none_iff {s : Schedule} {g t : UInt16} :
    s.cellMap.cells g t = none ↔ s.link? g t = none := Option.map_eq_none_iff

/-- What is at a place of the map is the entry of a link there. -/
theorem exists_link?_of_cells {s : Schedule} {g t : UInt16} {e : CellMap.Entry}
    (he : s.cellMap.cells g t = some e) : ∃ l, s.link? g t = some l ∧ l.handle = e.handle := by
  obtain ⟨l, hl, rfl⟩ := Option.map_eq_some_iff.1 he
  exact ⟨l, hl, rfl⟩

/-- An operation makes no link and keeps the handles, or it makes a link, which gets the next. -/
theorem WellFormed.perform_cases {s : Schedule} (hs : s.WellFormed) (op : Operation) :
    op.made? s = none ∧ CellMap.Keeps s.cellMap (op.perform s).1.cellMap ∨
      ∃ l, op.made? s = some l ∧ l.handle = s.nextHandle ∧
        (op.perform s).1.link? l.frame l.timeslot = some l ∧
        CellMap.Makes l.frame l.timeslot s.cellMap (op.perform s).1.cellMap := by
  have hcases := op.prescribed_cases s.maxFrames s.maxLinks s.cellMap
  rw [← hs.cellMap_perform op] at hcases
  rcases hcases with hkeeps | ⟨g, t, hplace, hmakes⟩
  · refine .inl ⟨?_, hkeeps⟩
    unfold Operation.made?
    rcases op.place? with _ | ⟨g, t⟩
    · rfl
    · rcases hl : s.link? g t with _ | l
      · -- what would be there now would have been there before
        rcases hl' : (op.perform s).1.link? g t with _ | l'
        · simp [hl, hl']
        · obtain ⟨e, he, -⟩ := hkeeps.exists_cells (cells_eq_some hl')
          rw [cells_eq_none_iff.2 hl] at he
          cases he
      · simp [hl]
  · obtain ⟨e, he, hhandle⟩ := hmakes.exists_cells
    obtain ⟨l, hl, hentry⟩ := exists_link?_of_cells he
    have hframe := (hs.perform op).frame_eq hl
    have htimeslot := (hs.perform op).timeslot_eq hl
    subst hframe
    subst htimeslot
    refine .inr ⟨l, ?_, hentry.trans hhandle, hl, hmakes⟩
    simp [Operation.made?, hplace, cells_eq_none_iff.1 hmakes.vacant, hl]

/-! ## Runs -/

section Runs

variable {s : Schedule} {n : Nat} {handle : UInt32} {op : Operation}

/-- One operation gives the handle `n`, if it makes a link, or none. -/
theorem numbered_perform (hs : s.WellFormed) (hn : s.cellMap.Numbered n)
    (hroom : n + (op.made? s).toList.length ≤ 2 ^ 32) :
    (op.perform s).1.cellMap.Numbered (n + (op.made? s).toList.length) ∧
      (op.made? s).toList.map (·.handle.toNat) = List.range' n (op.made? s).toList.length := by
  rcases hs.perform_cases op with ⟨hmade, hkeeps⟩ | ⟨l, hmade, hhandle, -, hmakes⟩
  · rw [hmade]
    exact ⟨hn.keeps hkeeps, rfl⟩
  · rw [hmade] at hroom ⊢
    have hlt : n < 2 ^ 32 := hroom
    have hnext : l.handle.toNat = n := hhandle ▸ hn.toNat_nextHandle hlt
    refine ⟨hn.makes hlt hmakes, ?_⟩
    simp [hnext]

/-- A handle that was given and is absent is absent after one more operation. -/
theorem absent_perform (hs : s.WellFormed) (hn : s.cellMap.Numbered n)
    (hroom : n + (op.made? s).toList.length ≤ 2 ^ 32) (hgiven : handle.toNat < n)
    (habsent : s.cellMap.Absent handle) : (op.perform s).1.cellMap.Absent handle := by
  rcases hs.perform_cases op with ⟨-, hkeeps⟩ | ⟨l, hmade, -, -, hmakes⟩
  · exact habsent.keeps hkeeps
  · rw [hmade] at hroom
    exact habsent.makes hn hroom hgiven hmakes

/-- After one more operation a link is at its place with its handle or, if the place is vacant, its
handle is absent. -/
theorem perform_follow (hs : s.WellFormed) (hn : s.cellMap.Numbered n) {g t : UInt16} {l : Link}
    (hl : s.link? g t = some l) (op : Operation) :
    (∃ l', (op.perform s).1.link? g t = some l' ∧ l'.handle = l.handle) ∨
      (op.perform s).1.link? g t = none ∧ (op.perform s).1.cellMap.Absent l.handle := by
  have hentry := cells_eq_some hl
  rcases hs.perform_cases op with ⟨-, hkeeps⟩ | ⟨new, -, -, -, hmakes⟩
  · rcases hl' : (op.perform s).1.link? g t with _ | l'
    · refine .inr ⟨rfl, fun g' t' e' he' heq => ?_⟩
      -- what has the handle now had it before, so it is at the place, which is vacant
      obtain ⟨e, he, hhandle⟩ := hkeeps.exists_cells he'
      obtain ⟨rfl, rfl⟩ := hn.place_eq he hentry (hhandle.trans heq)
      rw [cells_eq_none_iff.2 hl'] at he'
      cases he'
    · obtain ⟨e, he, hhandle⟩ := hkeeps.exists_cells (cells_eq_some hl')
      rw [hentry] at he
      cases he
      exact .inl ⟨l', rfl, hhandle.symm⟩
  · -- the place of the new link was vacant, so it is another one
    have hne : ¬(g = new.frame ∧ t = new.timeslot) := by
      rintro ⟨rfl, rfl⟩
      rw [hmakes.vacant] at hentry
      cases hentry
    rw [← hmakes.cells_eq hne] at hentry
    exact .inl (exists_link?_of_cells hentry)

/-- A run makes the links of its first operation and those of the others. -/
theorem length_made_cons (s : Schedule) (op : Operation) (ops : List Operation) :
    (s.made (op :: ops)).length =
      (op.made? s).toList.length + ((op.perform s).1.made ops).length := by
  simp only [made, List.length_append]

/-- A run gives the handles from `n` on, one to each link that it makes. -/
theorem numbered_run (hs : s.WellFormed) (hn : s.cellMap.Numbered n) (ops : List Operation)
    (hroom : n + (s.made ops).length ≤ 2 ^ 32) :
    (s.run ops).1.cellMap.Numbered (n + (s.made ops).length) ∧
      (s.made ops).map (·.handle.toNat) = List.range' n (s.made ops).length := by
  induction ops generalizing s n with
  | nil => exact ⟨hn, rfl⟩
  | cons op ops ih =>
    rw [length_made_cons, ← Nat.add_assoc] at hroom ⊢
    obtain ⟨hfirst, hhandles⟩ := numbered_perform hs hn (Nat.le_trans (Nat.le_add_right ..) hroom)
    obtain ⟨hrest, hhandles'⟩ := ih (hs.perform op) hfirst hroom
    refine ⟨hrest, ?_⟩
    rw [made, List.map_append, hhandles, hhandles', List.range'_append_1]

/-- A handle that was given and is absent stays absent. -/
theorem absent_run (hs : s.WellFormed) (hn : s.cellMap.Numbered n) (ops : List Operation)
    (hroom : n + (s.made ops).length ≤ 2 ^ 32) (hgiven : handle.toNat < n)
    (habsent : s.cellMap.Absent handle) : (s.run ops).1.cellMap.Absent handle := by
  induction ops generalizing s n with
  | nil => exact habsent
  | cons op ops ih =>
    rw [length_made_cons, ← Nat.add_assoc] at hroom
    have hroom' := Nat.le_trans (Nat.le_add_right ..) hroom
    exact ih (hs.perform op) (numbered_perform hs hn hroom').1 hroom
      (Nat.lt_of_lt_of_le hgiven (Nat.le_add_right ..)) (absent_perform hs hn hroom' hgiven habsent)

/-- A link is at its place with its handle as long as the place holds one; after that, its handle is
absent. -/
theorem follow_run (hs : s.WellFormed) (hn : s.cellMap.Numbered n) (ops : List Operation)
    (hroom : n + (s.made ops).length ≤ 2 ^ 32) {g t : UInt16} {l : Link}
    (hl : s.link? g t = some l) :
    s.Holds g t ops ∧ (∃ l', (s.run ops).1.link? g t = some l' ∧ l'.handle = l.handle) ∨
      ¬s.Holds g t ops ∧ (s.run ops).1.cellMap.Absent l.handle := by
  induction ops generalizing s n l with
  | nil => exact .inl ⟨Option.isSome_iff_exists.2 ⟨l, hl⟩, l, hl, rfl⟩
  | cons op ops ih =>
    have hgiven := hn.handle_lt (cells_eq_some hl)
    have hheld : s.Holds g t (op :: ops) ↔ (op.perform s).1.Holds g t ops :=
      and_iff_right (Option.isSome_iff_exists.2 ⟨l, hl⟩)
    rw [length_made_cons, ← Nat.add_assoc] at hroom
    have hroom' := Nat.le_trans (Nat.le_add_right ..) hroom
    have hnumbered := (numbered_perform hs hn hroom').1
    rw [hheld]
    rcases perform_follow hs hn hl op with ⟨l', hl', hhandle⟩ | ⟨hvacant, habsent⟩
    · rw [← hhandle]
      exact ih (hs.perform op) hnumbered hroom hl'
    · refine .inr ⟨fun hholds => ?_, ?_⟩
      · have hsome : ((op.perform s).1.link? g t).isSome := by
          cases ops with
          | nil => exact hholds
          | cons => exact hholds.1
        rw [hvacant] at hsome
        cases hsome
      · have hgiven' := Nat.lt_of_lt_of_le hgiven (Nat.le_add_right n (op.made? s).toList.length)
        exact absent_run (hs.perform op) hnumbered ops hroom hgiven' habsent

end Runs

/-! ## Taking out a link by its handle -/

variable {s : Schedule} {frame : UInt16} {handle : UInt32}

/-- A handle that comes to an error is refused. -/
theorem refuses_of_error {e : ScheduleError} (h : s.removeLink frame handle = .error e) :
    s.Refuses frame handle := by
  refine ⟨e, ?_⟩
  rw [Operation.perform_removeLink, h]
  rfl

/-- A link of the slotframe that has the handle is taken out, or none has it and the operation is
refused. -/
theorem WellFormed.removeLink_cases (hs : s.WellFormed) (frame : UInt16) (handle : UInt32) :
    (∃ s' l, s.removeLink frame handle = .ok (s', l) ∧ l.handle = handle ∧
      s.link? frame l.timeslot = some l ∧ SetAt frame l.timeslot none s s') ∨
    s.Refuses frame handle ∧ ∀ t l, s.link? frame t = some l → l.handle ≠ handle := by
  rcases hf : s.frame? frame with _ | f
  · have hremove : s.removeLink frame handle = .error (.unknownFrame frame) := by
      simp only [removeLink_eq, hf]
    refine .inr ⟨refuses_of_error hremove, fun t l hl => ?_⟩
    simp [link?, hf] at hl
  · rcases hfind : f.links.entries.find? (·.2.handle = handle) with _ | ⟨t, l⟩
    · have hremove : s.removeLink frame handle = .error (.unknownLink frame handle) := by
        simp only [removeLink_eq, hf, hfind]
      refine .inr ⟨refuses_of_error hremove, fun t l hl heq => ?_⟩
      rw [link?_eq_get? hf] at hl
      exact List.find?_eq_none.1 hfind (t, l) (Table.get?_eq_some_iff.1 hl) (by simpa using heq)
    · have hremove : s.removeLink frame handle =
          .ok ({ s.withLinks frame f (f.links.erase t) with linkCount := s.linkCount - 1 }, l) := by
        simp only [removeLink_eq, hf, hfind]
      have hget : f.links.get? t = some l :=
        Table.get?_eq_some_iff.2 (List.mem_of_find?_eq_some hfind)
      have hhandle := List.find?_some hfind
      obtain rfl := (hs.fits hf).timeslot_eq hget
      refine .inl ⟨_, l, hremove, by simpa using hhandle, ?_, hs.removeLink hremove,
        sameFrames_withLinks hf _ _ _, link?_withLinks_erase hf _⟩
      rw [link?_eq_get? hf, hget]

/-- A handle that no link has is refused in every slotframe. -/
theorem refuses_of_absent (hs : s.WellFormed) (habsent : s.cellMap.Absent handle)
    (frame : UInt16) : s.Refuses frame handle := by
  rcases hs.removeLink_cases frame handle with ⟨s', l, -, hhandle, hl, -⟩ | ⟨hrefuses, -⟩
  · exact absurd hhandle (habsent _ _ _ (cells_eq_some hl))
  · exact hrefuses

/-- Where a handle is at one place only, it is taken out there and nowhere else. -/
theorem removeLink_of_numbered {n : Nat} {g t : UInt16} {l : Link} (hs : s.WellFormed)
    (hn : s.cellMap.Numbered n) (hl : s.link? g t = some l) :
    (∃ s', s.removeLink g l.handle = .ok (s', l) ∧ SetAt g t none s s') ∧
      ∀ frame ≠ g, s.Refuses frame l.handle := by
  constructor
  · rcases hs.removeLink_cases g l.handle with ⟨s', l', hremove, hhandle, hl', hset⟩ | ⟨-, hnone⟩
    · obtain ⟨-, rfl⟩ := hn.place_eq (cells_eq_some hl') (cells_eq_some hl) hhandle
      rw [hl] at hl'
      cases hl'
      exact ⟨s', hremove, hset⟩
    · exact absurd rfl (hnone t l hl)
  · intro frame hne
    rcases hs.removeLink_cases frame l.handle with ⟨s', l', -, hhandle, hl', -⟩ | ⟨hrefuses, -⟩
    · exact absurd (hn.place_eq (cells_eq_some hl') (cells_eq_some hl) hhandle).1 hne
    · exact hrefuses

/-- By the handle of a link that an operation made, this link is taken out, if its place has held
one since; otherwise, and in every other slotframe, nothing is. -/
theorem removeLink_of_made {n : Nat} {op : Operation} {l : Link} (hs : s.WellFormed)
    (hn : s.cellMap.Numbered n) (aft : List Operation)
    (hroom : n + (s.made (op :: aft)).length ≤ 2 ^ 32) (hmade : op.made? s = some l) :
    let s' := (s.run (op :: aft)).1
    let held := (op.perform s).1.Holds l.frame l.timeslot aft
    (held → ∃ s'' l', s'.removeLink l.frame l.handle = .ok (s'', l') ∧ l'.handle = l.handle ∧
      s'.link? l.frame l.timeslot = some l' ∧ SetAt l.frame l.timeslot none s' s'') ∧
    ∀ frame, ¬(frame = l.frame ∧ held) → s'.Refuses frame l.handle := by
  intro s' held
  have hs' : s'.WellFormed := hs.run (op :: aft)
  obtain ⟨hn', -⟩ := numbered_run hs hn (op :: aft) hroom
  rw [length_made_cons, ← Nat.add_assoc] at hroom
  have hl : (op.perform s).1.link? l.frame l.timeslot = some l := by
    rcases hs.perform_cases op with ⟨hnone, -⟩ | ⟨l₁, hmade₁, -, hl₁, -⟩
    · rw [hnone] at hmade
      cases hmade
    · rw [hmade₁] at hmade
      cases hmade
      exact hl₁
  have hfirst := (numbered_perform hs hn (Nat.le_trans (Nat.le_add_right ..) hroom)).1
  rcases follow_run (hs.perform op) hfirst aft hroom hl with
    ⟨hheld, l', hl', hhandle⟩ | ⟨hgone, habsent⟩
  · obtain ⟨⟨s'', hremove, hset⟩, hother⟩ := removeLink_of_numbered hs' hn' hl'
    rw [hhandle] at hremove hother
    refine ⟨fun _ => ⟨s'', l', hremove, hhandle, hl', hset⟩, fun frame hnot => ?_⟩
    exact hother frame fun hframe => hnot ⟨hframe, hheld⟩
  · exact ⟨fun hheld => absurd hheld hgone, fun frame _ => refuses_of_absent hs' habsent frame⟩

/-- **A handle is one link's.**  Take any run of operations from the schedule without slotframes
that makes at most `2 ^ 32` links.  Links that are there together have different handles, and of the
links that were made no two had the same.  A link that is put where there is one keeps the handle
and the lease that are there.  By its handle, the link that an operation made is taken out of its
slotframe as long as its place has held one, and nothing else changes; after that, in another
slotframe, or with a handle that was never given, the operation is refused and nothing changes. -/
theorem handles_of_run (maxFrames maxLinks : Nat) (ops : List Operation)
    (hroom : ((empty maxFrames maxLinks).made ops).length ≤ 2 ^ 32) :
    let s₀ := empty maxFrames maxLinks
    let s := (s₀.run ops).1
    (∀ g t g' t' l l', s.link? g t = some l → s.link? g' t' = some l' → l.handle = l'.handle →
      g = g' ∧ t = t') ∧
    ((s₀.made ops).map (·.handle)).Nodup ∧
    (∀ g t l a, s.link? g t = some l →
      ∃ s', s.putLink g t a = .ok (s', { l with toAttributes := a }) ∧
        SetAt g t (some { l with toAttributes := a }) s s') ∧
    (∀ fore op aft l, ops = fore ++ op :: aft → op.made? (s₀.run fore).1 = some l →
      let held := (op.perform (s₀.run fore).1).1.Holds l.frame l.timeslot aft
      (held → ∃ s' l', s.removeLink l.frame l.handle = .ok (s', l') ∧ l'.handle = l.handle ∧
        s.link? l.frame l.timeslot = some l' ∧ SetAt l.frame l.timeslot none s s') ∧
      ∀ frame, ¬(frame = l.frame ∧ held) → s.Refuses frame l.handle) ∧
    ∀ handle ∉ (s₀.made ops).map (·.handle), ∀ frame, s.Refuses frame handle := by
  intro s₀ s
  have hs₀ : s₀.WellFormed := .empty maxFrames maxLinks
  have hs : s.WellFormed := hs₀.run ops
  have hn₀ : s₀.cellMap.Numbered 0 := CellMap.numbered_empty
  have hroom : (s₀.made ops).length ≤ 2 ^ 32 := hroom
  obtain ⟨hn, hhandles⟩ := numbered_run hs₀ hn₀ ops (by omega)
  rw [Nat.zero_add] at hn
  refine ⟨?_, ?_, ?_, ?_, ?_⟩
  · intro g t g' t' l l' hl hl' heq
    exact hn.place_eq (cells_eq_some hl) (cells_eq_some hl') heq
  · have hnodup : ((s₀.made ops).map (·.handle.toNat)).Nodup := hhandles ▸ List.nodup_range'
    exact List.Nodup.of_map UInt32.toNat (by rwa [List.map_map])
  · intro g t l a hl
    obtain ⟨s', hput, -⟩ := reworked_putLink hs hl a
    exact ⟨s', hput, (setAt_putLink hs hput).2⟩
  · intro fore op aft l hops hmade
    have hmades := made_append s₀ fore (op :: aft)
    rw [← hops] at hmades
    rw [hmades, List.length_append] at hroom
    have hfore := numbered_run hs₀ hn₀ fore (by omega)
    have hrest := removeLink_of_made (hs₀.run fore) hfore.1 aft (by omega) hmade
    rw [← fst_run_append, ← hops] at hrest
    exact hrest
  · intro handle hnever frame
    refine refuses_of_absent hs (fun g t e he heq => hnever ?_) frame
    have hlt : handle.toNat < (s₀.made ops).length := heq ▸ hn.handle_lt he
    have hmem : handle.toNat ∈ (s₀.made ops).map (·.handle.toNat) := by
      rw [hhandles, List.mem_range'_1]
      omega
    obtain ⟨l, hl, hhandle⟩ := List.mem_map.1 hmem
    exact List.mem_map.2 ⟨l, hl, UInt32.toNat_inj.1 hhandle⟩

/-- Two links one after the other at one place, with everything taken out in between. -/
def placeTwice : List Operation :=
  [.addFrame 1 4, .putLink 1 0 ⟨.txOnly, .normal, .unbound, 0⟩, .clear, .addFrame 1 4,
    .putLink 1 0 ⟨.rxOnly, .normal, .unbound, 0⟩]

/-- The handle of the first link does not take out the second, which is at its place. -/
theorem handles_of_run_placeTwice :
    let s := ((empty 1 1).run placeTwice).1
    s.Refuses 1 0 ∧ (∃ l, s.link? 1 0 = some l ∧ l.handle = 1) ∧
      ∃ s' l, s.removeLink 1 1 = .ok (s', l) := by
  obtain ⟨-, -, -, hmade, -⟩ := handles_of_run 1 1 placeTwice (by decide)
  have hfirst := hmade [.addFrame 1 4] (.putLink 1 0 ⟨.txOnly, .normal, .unbound, 0⟩)
    [.clear, .addFrame 1 4, .putLink 1 0 ⟨.rxOnly, .normal, .unbound, 0⟩]
    ⟨⟨.txOnly, .normal, .unbound, 0⟩, 0, 1, 0, none⟩ rfl (by decide)
  have hsecond := hmade
    [.addFrame 1 4, .putLink 1 0 ⟨.txOnly, .normal, .unbound, 0⟩, .clear, .addFrame 1 4]
    (.putLink 1 0 ⟨.rxOnly, .normal, .unbound, 0⟩) []
    ⟨⟨.rxOnly, .normal, .unbound, 0⟩, 1, 1, 0, none⟩ rfl (by decide)
  refine ⟨hfirst.2 1 (by decide), ?_⟩
  obtain ⟨s', l, hremove, hhandle, hl, -⟩ := hsecond.1 (by decide)
  exact ⟨⟨l, hl, hhandle⟩, s', l, hremove⟩

end Schedule

end SlottedMesh
