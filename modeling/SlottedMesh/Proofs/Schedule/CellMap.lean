import Mathlib.Data.Set.Card
import SlottedMesh.Proofs.Schedule.WellFormed

/-!
# Schedules as plain maps

What a schedule is to the outside: slotframes have lengths, and places have links.  A `CellMap` says
this with two functions and nothing kept beside them but the handle of the next link; how many
slotframes or links there are is counted from the functions.  `Operation.prescribed` says what each
operation makes of a map and what it answers.

* `Operation.perform` carries out an operation on a schedule, and `Schedule.run` a run of them.
* `Operation.atomic_update`: every operation is all or nothing, whatever the schedule.
* `WellFormed.observe_perform`: on a well-formed schedule an operation makes of the map what is
  prescribed and answers what is prescribed.
* `run_eq_prescribed` is the main statement: it says the same of every run from the schedule without
  slotframes, and that a next operation changes only what it names, and nothing if it is refused.
-/

namespace SlottedMesh

/-- What a map says of a link: all but its place. -/
structure CellMap.Entry where
  /-- What was set of the link. -/
  attributes : Link.Attributes
  /-- The number by which the link is told from others. -/
  handle : UInt32
  /-- The lease, if the link is only lent. -/
  lease : Option Link.Lease
deriving DecidableEq

/-- A schedule as a plain map. -/
@[ext]
structure CellMap where
  /-- The lengths of the slotframes. -/
  lengths : UInt16 → Option UInt16
  /-- The links by slotframe and timeslot. -/
  cells : UInt16 → UInt16 → Option CellMap.Entry
  /-- The handle that the next new link gets. -/
  nextHandle : UInt32

/-- What a link says but its place. -/
def Link.entry (l : Link) : CellMap.Entry := ⟨l.toAttributes, l.handle, l.lease⟩

/-- The link with this entry at a place. -/
def CellMap.Entry.link (e : Entry) (frame timeslot : UInt16) : Link :=
  { e.attributes with handle := e.handle, frame, timeslot, lease := e.lease }

/-- What an operation on a schedule answers. -/
inductive Schedule.Answer where
  /-- A slotframe with this id, this length and these links. -/
  | frame (id length : UInt16) (links : UInt16 → Option CellMap.Entry)
  /-- A link. -/
  | link (l : Link)
  /-- A link, if there was one. -/
  | link? (l : Option Link)
  /-- Nothing but that it is done. -/
  | done

/-- An operation that changes a schedule. -/
inductive Schedule.Operation where
  | addFrame (id length : UInt16)
  | removeFrame (id : UInt16)
  | clear
  | putLink (frame timeslot : UInt16) (attributes : Link.Attributes)
  | addLink (frame timeslot : UInt16) (attributes : Link.Attributes)
  | removeLink (frame : UInt16) (handle : UInt32)
  | removeLinkAt (frame timeslot : UInt16)
  | setLease (frame timeslot : UInt16) (lease : Option Link.Lease)

namespace CellMap

/-- The map without slotframes. -/
def empty : CellMap := ⟨fun _ => none, fun _ _ => none, 0⟩

/-- How many slotframes there are. -/
noncomputable def frameCount (m : CellMap) : Nat := {id | (m.lengths id).isSome}.ncard

/-- How many links there are. -/
noncomputable def linkCount (m : CellMap) : Nat :=
  {place : UInt16 × UInt16 | (m.cells place.1 place.2).isSome}.ncard

/-- The map in which a slotframe has this length, or is none, and has no links. -/
def setFrame (m : CellMap) (id : UInt16) (length : Option UInt16) : CellMap :=
  { m with
    lengths := fun g => if g = id then length else m.lengths g
    cells := fun g u => if g = id then none else m.cells g u }

/-- The map with this at a place. -/
def setCell (m : CellMap) (frame timeslot : UInt16) (e : Option Entry) : CellMap :=
  { m with cells := fun g u => if g = frame ∧ u = timeslot then e else m.cells g u }

/-- All timeslots that sixteen bits can count, ascending. -/
def timeslots : List UInt16 := (List.range (2 ^ 16)).map UInt16.ofNat

/-- The first timeslot of a slotframe whose link has this handle. -/
def timeslotOf? (m : CellMap) (frame : UInt16) (handle : UInt32) : Option UInt16 :=
  timeslots.find? fun t => (m.cells frame t).any (·.handle = handle)

/-- What becomes of a map when a link is put at a timeslot, and the answer. -/
noncomputable def putLink (maxLinks : Nat) (m : CellMap) (frame timeslot : UInt16)
    (a : Link.Attributes) : CellMap × Except ScheduleError Schedule.Answer :=
  match m.lengths frame with
  | none => (m, .error (.unknownFrame frame))
  | some length =>
    if length ≤ timeslot then (m, .error (.timeslotOutOfRange frame timeslot length))
    else match m.cells frame timeslot with
      | some old =>
        let e := { old with attributes := a }
        (m.setCell frame timeslot (some e), .ok (.link (e.link frame timeslot)))
      | none =>
        if maxLinks ≤ m.linkCount then (m, .error (.full .link maxLinks))
        else
          let e : Entry := ⟨a, m.nextHandle, none⟩
          ({ m.setCell frame timeslot (some e) with nextHandle := m.nextHandle + 1 },
            .ok (.link (e.link frame timeslot)))

end CellMap

namespace Schedule

/-! ## Carrying out operations -/

/-- The schedule and the answer that are left by what comes out of an update, where a refusal leaves
the schedule as it was. -/
def report {α : Type} (s : Schedule) (tell : α → Answer) :
    Except ScheduleError (Schedule × α) → Schedule × Except ScheduleError Answer
  | .ok (s', x) => (s', .ok (tell x))
  | .error e => (s, .error e)

/-- What is told of a slotframe. -/
def Answer.ofFrame (f : Slotframe) : Answer :=
  .frame f.id f.length fun t => (f.links.get? t).map Link.entry

/-- The update that an operation is, with its answer.  An operation on a lease answers with the link
that it was carried out on. -/
def Operation.update : Operation → Update Answer
  | addFrame id length => Answer.ofFrame <$> Update.addFrame id length
  | removeFrame id => Answer.ofFrame <$> Update.removeFrame id
  | clear => do
    modify Schedule.clear
    return .done
  | putLink frame timeslot a => Answer.link <$> Update.putLink frame timeslot a
  | addLink frame timeslot a => Answer.link <$> Update.addLink frame timeslot a
  | removeLink frame handle => Answer.link <$> Update.removeLink frame handle
  | removeLinkAt frame timeslot => Answer.link? <$> Update.removeLinkAt frame timeslot
  | setLease frame timeslot lease => do
    modify (·.setLease frame timeslot lease)
    return .link? ((← get).link? frame timeslot)

/-- Carry out an operation on a schedule. -/
def Operation.perform (s : Schedule) (op : Operation) : Schedule × Except ScheduleError Answer :=
  op.update.perform s

/-- Carry out operations one after another; the answers are in the same order. -/
def run (s : Schedule) : List Operation → Schedule × List (Except ScheduleError Answer)
  | [] => (s, [])
  | op :: ops =>
    let (s, answer) := op.perform s
    let (s, answers) := s.run ops
    (s, answer :: answers)

/-! ## Refused operations -/

/-- Every operation is all or nothing. -/
theorem Operation.atomic_update (op : Operation) : op.update.Atomic := by
  cases op with
  | addFrame id length => exact (Update.atomic_addFrame id length).map _
  | removeFrame id => exact (Update.atomic_removeFrame id).map _
  | clear => exact ((Change.getsThrough_modify _).bind fun _ => Change.getsThrough_pure _).atomic
  | putLink frame timeslot a => exact (Update.atomic_putLink frame timeslot a).map _
  | addLink frame timeslot a => exact (Update.atomic_addLink frame timeslot a).map _
  | removeLink frame handle => exact (Update.atomic_removeLink frame handle).map _
  | removeLinkAt frame timeslot => exact (Update.atomic_removeLinkAt frame timeslot).map _
  | setLease frame timeslot lease => exact fun _ _ => nofun

/-- An operation that is refused leaves the schedule as it was. -/
theorem perform_error {s : Schedule} {op : Operation} {e : ScheduleError}
    (h : (op.perform s).2 = .error e) : (op.perform s).1 = s := op.atomic_update s e h

/-- What an update that is all or nothing leaves is told by what comes out of it. -/
theorem perform_map_eq_report {α : Type} {u : Update α} (h : u.Atomic) (tell : α → Answer)
    (s : Schedule) : (tell <$> u).perform s = s.report tell (u.outcome s) := by
  rw [Change.perform_map, h.perform_eq]
  rcases u.outcome s with e | ⟨s', x⟩ <;> rfl

namespace Operation

/-- A slotframe is made, or refused with the schedule as it was. -/
theorem perform_addFrame (s : Schedule) (id length : UInt16) :
    (addFrame id length).perform s = s.report .ofFrame (s.addFrame id length) :=
  perform_map_eq_report (Update.atomic_addFrame id length) _ s

/-- A slotframe is taken out, or the schedule is left as it was. -/
theorem perform_removeFrame (s : Schedule) (id : UInt16) :
    (removeFrame id).perform s = s.report .ofFrame (s.removeFrame id) :=
  perform_map_eq_report (Update.atomic_removeFrame id) _ s

/-- A link is put, or refused with the schedule as it was. -/
theorem perform_putLink (s : Schedule) (frame timeslot : UInt16) (a : Link.Attributes) :
    (putLink frame timeslot a).perform s = s.report .link (s.putLink frame timeslot a) :=
  perform_map_eq_report (Update.atomic_putLink frame timeslot a) _ s

/-- A new link is made, or refused with the schedule as it was. -/
theorem perform_addLink (s : Schedule) (frame timeslot : UInt16) (a : Link.Attributes) :
    (addLink frame timeslot a).perform s = s.report .link (s.addLink frame timeslot a) :=
  perform_map_eq_report (Update.atomic_addLink frame timeslot a) _ s

/-- The link of a handle is taken out, or the schedule is left as it was. -/
theorem perform_removeLink (s : Schedule) (frame : UInt16) (handle : UInt32) :
    (removeLink frame handle).perform s = s.report .link (s.removeLink frame handle) :=
  perform_map_eq_report (Update.atomic_removeLink frame handle) _ s

/-- A timeslot is cleared, or the schedule is left as it was. -/
theorem perform_removeLinkAt (s : Schedule) (frame timeslot : UInt16) :
    (removeLinkAt frame timeslot).perform s =
      s.report .link? (s.removeLinkAt frame timeslot) :=
  perform_map_eq_report (Update.atomic_removeLinkAt frame timeslot) _ s

/-- The lease is set, and the answer is what is then at the timeslot. -/
theorem perform_setLease (s : Schedule) (frame timeslot : UInt16) (lease : Option Link.Lease) :
    (setLease frame timeslot lease).perform s = (s.setLease frame timeslot lease,
      .ok (.link? ((s.setLease frame timeslot lease).link? frame timeslot))) := rfl

end Operation

/-! ## What is prescribed -/

/-- What an operation makes of a map with these capacities, and what it answers. -/
noncomputable def Operation.prescribed (maxFrames maxLinks : Nat) (m : CellMap) :
    Operation → CellMap × Except ScheduleError Answer
  | addFrame id length =>
    if (m.lengths id).isSome then (m, .error (.duplicateFrame id))
    else if length = 0 then (m, .error (.emptyFrame id))
    else if maxFrames ≤ m.frameCount then (m, .error (.full .slotframe maxFrames))
    else (m.setFrame id (some length), .ok (.frame id length fun _ => none))
  | removeFrame id =>
    match m.lengths id with
    | none => (m, .error (.unknownFrame id))
    | some length => (m.setFrame id none, .ok (.frame id length (m.cells id)))
  | clear => ({ CellMap.empty with nextHandle := m.nextHandle }, .ok .done)
  | putLink frame timeslot a => m.putLink maxLinks frame timeslot a
  | addLink frame timeslot a =>
    if (m.cells frame timeslot).isSome then (m, .error (.timeslotOccupied frame timeslot))
    else m.putLink maxLinks frame timeslot a
  | removeLink frame handle =>
    match m.lengths frame with
    | none => (m, .error (.unknownFrame frame))
    | some _ =>
      match m.timeslotOf? frame handle with
      | none => (m, .error (.unknownLink frame handle))
      | some timeslot =>
        match m.cells frame timeslot with
        | none => (m, .error (.unknownLink frame handle))
        | some e => (m.setCell frame timeslot none, .ok (.link (e.link frame timeslot)))
  | removeLinkAt frame timeslot =>
    match m.lengths frame with
    | none => (m, .error (.unknownFrame frame))
    | some _ =>
      (m.setCell frame timeslot none,
        .ok (.link? ((m.cells frame timeslot).map (·.link frame timeslot))))
  | setLease frame timeslot lease =>
    let e := (m.cells frame timeslot).map fun e => { e with lease }
    (m.setCell frame timeslot e, .ok (.link? (e.map (·.link frame timeslot))))

/-- What a run of operations makes of a map, and what it answers. -/
noncomputable def prescribedRun (maxFrames maxLinks : Nat) (m : CellMap) :
    List Operation → CellMap × List (Except ScheduleError Answer)
  | [] => (m, [])
  | op :: ops =>
    let (m, answer) := op.prescribed maxFrames maxLinks m
    let (m, answers) := prescribedRun maxFrames maxLinks m ops
    (m, answer :: answers)

/-- The operation names the place of a slotframe and a timeslot. -/
def Operation.Names (m : CellMap) (g u : UInt16) : Operation → Prop
  | addFrame id _ | removeFrame id => g = id
  | clear => True
  | putLink frame timeslot _ | addLink frame timeslot _ | removeLinkAt frame timeslot
  | setLease frame timeslot _ => g = frame ∧ u = timeslot
  | removeLink frame handle => g = frame ∧ ∃ e, m.cells g u = some e ∧ e.handle = handle

/-- The operation names a slotframe. -/
def Operation.NamesFrame (g : UInt16) : Operation → Prop
  | addFrame id _ | removeFrame id => g = id
  | clear => True
  | _ => False

/-- The schedule as a plain map. -/
def cellMap (s : Schedule) : CellMap where
  lengths := s.length?
  cells frame timeslot := (s.link? frame timeslot).map (·.entry)
  nextHandle := s.nextHandle

/-! ## Counting the map -/

/-- The map counts the slotframes. -/
theorem frameCount_cellMap (s : Schedule) : s.cellMap.frameCount = s.frames.size := by
  have hset : {id | (s.cellMap.lengths id).isSome} = {id | (s.frames.get? id).isSome} := by
    ext id
    simp [cellMap, length?, frame?]
  unfold CellMap.frameCount
  rw [hset, Table.ncard_support]

/-- The places of all links, by slotframe and timeslot. -/
def places (s : Schedule) : List (UInt16 × UInt16) :=
  s.frames.entries.flatMap fun e => e.2.links.keys.map (e.1, ·)

/-- There are as many places as links. -/
theorem length_places (s : Schedule) : s.places.length = s.links.length := by
  unfold places links Table.values
  rw [List.length_flatMap, List.length_flatMap]
  simp [Table.keys, Function.comp_def]

/-- The places are where a link is shown. -/
theorem mem_places_iff {s : Schedule} {place : UInt16 × UInt16} :
    place ∈ s.places ↔ (s.link? place.1 place.2).isSome := by
  obtain ⟨frame, timeslot⟩ := place
  simp only [places, List.mem_flatMap, List.mem_map, Prod.mk.injEq, Option.isSome_iff_exists,
    link?_eq_some_iff]
  constructor
  · rintro ⟨⟨_, f⟩, hf, _, hkey, rfl, rfl⟩
    obtain ⟨l, hl⟩ := Option.isSome_iff_exists.1 (Table.mem_keys_iff.1 hkey)
    exact ⟨l, f, Table.get?_eq_some_iff.2 hf, hl⟩
  · rintro ⟨l, f, hf, hl⟩
    exact ⟨(frame, f), Table.get?_eq_some_iff.1 hf, timeslot,
      Table.mem_keys_iff.2 (Option.isSome_iff_exists.2 ⟨l, hl⟩), rfl, rfl⟩

/-- No place occurs twice. -/
theorem nodup_places (s : Schedule) : s.places.Nodup := by
  unfold places
  rw [List.nodup_flatMap]
  refine ⟨fun e _ => (Table.nodup_keys _).map fun _ _ h => (Prod.mk.inj h).2, ?_⟩
  refine s.frames.ascending.imp fun {e e'} hlt => ?_
  intro place hplace hplace'
  obtain ⟨_, _, rfl⟩ := List.mem_map.1 hplace
  obtain ⟨_, _, heq⟩ := List.mem_map.1 hplace'
  exact UInt16.ne_of_lt hlt (Prod.mk.inj heq).1.symm

/-- The map counts the links. -/
theorem linkCount_cellMap (s : Schedule) : s.cellMap.linkCount = s.links.length := by
  have hset : {place : UInt16 × UInt16 | (s.cellMap.cells place.1 place.2).isSome} =
      (s.places.toFinset : Set (UInt16 × UInt16)) := by
    ext place
    simp [cellMap, mem_places_iff]
  unfold CellMap.linkCount
  rw [hset, Set.ncard_coe_finset, List.toFinset_card_of_nodup s.nodup_places, length_places]

/-! ## Changing the map -/

/-- The map has the length of a slotframe that is there. -/
theorem lengths_cellMap {s : Schedule} {id : UInt16} {f : Slotframe} (hf : s.frame? id = some f) :
    s.cellMap.lengths id = some f.length := by
  simp [cellMap, length?, hf]

/-- The map shows the links of a slotframe that is there. -/
theorem cells_cellMap {s : Schedule} {frame : UInt16} {f : Slotframe}
    (hf : s.frame? frame = some f) (timeslot : UInt16) :
    s.cellMap.cells frame timeslot = (f.links.get? timeslot).map Link.entry := by
  simp only [cellMap, link?_eq_get? hf]

/-- Links of a slotframe do not change lengths. -/
theorem lengths_withLinks {s : Schedule} {id : UInt16} {f : Slotframe} (hf : s.frame? id = some f)
    (links : Table Link) : (s.withLinks id f links).cellMap.lengths = s.cellMap.lengths := by
  funext g
  exact length?_withLinks hf links g

/-- The map after a link is put; the count is no part of it. -/
theorem cellMap_withLinks_insert {s : Schedule} {frame : UInt16} {f : Slotframe}
    (hf : s.frame? frame = some f) (timeslot : UInt16) (l : Link) (count : Nat) (handle : UInt32) :
    cellMap { s.withLinks frame f (f.links.insert timeslot l) with
        linkCount := count, nextHandle := handle } =
      { s.cellMap.setCell frame timeslot (some l.entry) with nextHandle := handle } := by
  refine CellMap.ext (lengths_withLinks hf _) ?_ rfl
  funext g u
  have hlink := link?_withLinks_insert hf timeslot l g u
  show ((s.withLinks frame f _).link? g u).map _ = if _ then _ else _
  rw [hlink]
  split <;> rfl

/-- The map after a link is taken out; the count is no part of it. -/
theorem cellMap_withLinks_erase {s : Schedule} {frame : UInt16} {f : Slotframe}
    (hf : s.frame? frame = some f) (timeslot : UInt16) (count : Nat) :
    cellMap { s.withLinks frame f (f.links.erase timeslot) with linkCount := count } =
      s.cellMap.setCell frame timeslot none := by
  refine CellMap.ext (lengths_withLinks hf _) ?_ rfl
  funext g u
  have hlink := link?_withLinks_erase hf timeslot g u
  show ((s.withLinks frame f _).link? g u).map _ = if _ then _ else _
  rw [hlink]
  split <;> rfl

/-- To say of a place what is there changes nothing. -/
theorem setCell_self (m : CellMap) (frame timeslot : UInt16) :
    m.setCell frame timeslot (m.cells frame timeslot) = m := by
  refine CellMap.ext rfl ?_ rfl
  funext g u
  simp only [CellMap.setCell]
  split
  · rename_i hgu
    rw [hgu.1, hgu.2]
  · rfl

/-- A well-formed schedule shows at each place the link that the map has there. -/
theorem WellFormed.link?_eq {s : Schedule} (h : s.WellFormed) (frame timeslot : UInt16) :
    s.link? frame timeslot = (s.cellMap.cells frame timeslot).map (·.link frame timeslot) := by
  simp only [cellMap]
  cases hl : s.link? frame timeslot with
  | none => rfl
  | some l =>
    have hframe := h.frame_eq hl
    have htimeslot := h.timeslot_eq hl
    subst hframe
    subst htimeslot
    rfl

/-! ## Finding a handle -/

/-- The first timeslot of its kind is found. -/
theorem find?_timeslots {p : UInt16 → Bool} {t : UInt16} (ht : p t) (hfirst : ∀ u < t, ¬p u) :
    CellMap.timeslots.find? p = some t := by
  have hlt := t.toNat_lt
  unfold CellMap.timeslots
  rw [List.find?_map, Option.map_eq_some_iff]
  refine ⟨t.toNat, List.find?_range_eq_some.2 ⟨by simpa using ht, List.mem_range.2 hlt, ?_⟩,
    by simp⟩
  intro j hj
  have hlt' : UInt16.ofNat j < t := by
    rw [UInt16.lt_iff_toNat_lt, UInt16.toNat_ofNat', Nat.mod_eq_of_lt (by omega)]
    exact hj
  simpa using hfirst _ hlt'

/-- The first entry with a handle is at the first timeslot whose link has it. -/
theorem timeslotOf?_cellMap {s : Schedule} {frame : UInt16} {f : Slotframe}
    (hf : s.frame? frame = some f) (handle : UInt32) :
    s.cellMap.timeslotOf? frame handle =
      (f.links.entries.find? (·.2.handle = handle)).map (·.1) := by
  have hholds (u : UInt16) : (s.cellMap.cells frame u).any (·.handle = handle) ↔
      ∃ l, (u, l) ∈ f.links.entries ∧ l.handle = handle := by
    rw [cells_cellMap hf]
    simp only [← Table.get?_eq_some_iff]
    cases f.links.get? u <;> simp [Link.entry]
  unfold CellMap.timeslotOf?
  cases hfind : f.links.entries.find? (·.2.handle = handle) with
  | none =>
    rw [Option.map_none, List.find?_eq_none]
    intro u _ hu
    obtain ⟨l, hl, hhandle⟩ := (hholds u).1 hu
    exact List.find?_eq_none.1 hfind (u, l) hl (by simpa using hhandle)
  | some e =>
    obtain ⟨t, l⟩ := e
    obtain ⟨hhandle, before, after, hentries, hbefore⟩ := List.find?_eq_some_iff_append.1 hfind
    have hascending := f.links.ascending
    rw [hentries, List.pairwise_append, List.pairwise_cons] at hascending
    refine find?_timeslots ((hholds t).2 ⟨l, ?_, by simpa using hhandle⟩) fun u hu hholds' => ?_
    · rw [hentries]
      exact List.mem_append_right _ List.mem_cons_self
    · -- an entry of a smaller timeslot comes before, where no entry has the handle
      obtain ⟨l', hl', hhandle'⟩ := (hholds u).1 hholds'
      rw [hentries, List.mem_append, List.mem_cons] at hl'
      rcases hl' with hl' | hl' | hl'
      · have hne := hbefore _ hl'
        simp [hhandle'] at hne
      · exact UInt16.ne_of_lt hu (Prod.mk.inj hl').1
      · exact UInt16.lt_irrefl _ (UInt16.lt_trans hu (hascending.2.1.1 _ hl'))

/-! ## Each operation does what is prescribed -/

/-- What an operation makes of the map, and its answer. -/
def observe (p : Schedule × Except ScheduleError Answer) :
    CellMap × Except ScheduleError Answer := (p.1.cellMap, p.2)

namespace WellFormed

variable {s : Schedule}

/-- The map counts what the schedule counts. -/
theorem linkCount_eq_cellMap (h : s.WellFormed) : s.cellMap.linkCount = s.linkCount := by
  rw [linkCount_cellMap, h.linkCount_eq]

/-- Making a slotframe does what is prescribed, in the order of the reasons to refuse it. -/
theorem observe_addFrame (id length : UInt16) :
    observe ((Operation.addFrame id length).perform s) =
      (Operation.addFrame id length).prescribed s.maxFrames s.maxLinks s.cellMap := by
  rw [Operation.perform_addFrame, addFrame_eq]
  simp only [Operation.prescribed, frameCount_cellMap]
  cases hf : s.frame? id with
  | some f => simp [lengths_cellMap hf, observe, report]
  | none =>
    have hlength : s.cellMap.lengths id = none := by simp [cellMap, length?, hf]
    simp only [hlength, Option.isSome_none, Bool.false_eq_true, if_false]
    by_cases hzero : length = 0
    · have hdivisor : Divisor.of? length = .error .zeroDivisor := dif_pos hzero
      rw [hdivisor, if_pos hzero]
      rfl
    · have hdivisor : Divisor.of? length = .ok (.ofLength length hzero) := dif_neg hzero
      rw [hdivisor, if_neg hzero]
      simp only
      split
      · rfl
      · refine Prod.ext (CellMap.ext ?_ ?_ rfl) rfl
        · funext g
          simp only [observe, report, cellMap, CellMap.setFrame, length?, frame?, Table.get?_insert]
          split <;> rfl
        · funext g u
          simp only [observe, report, cellMap, CellMap.setFrame, link?, frame?, Table.get?_insert]
          split <;> rfl

/-- Taking out a slotframe does what is prescribed, and gives all its links. -/
theorem observe_removeFrame (h : s.WellFormed) (id : UInt16) :
    observe ((Operation.removeFrame id).perform s) =
      (Operation.removeFrame id).prescribed s.maxFrames s.maxLinks s.cellMap := by
  rw [Operation.perform_removeFrame, removeFrame_eq]
  simp only [Operation.prescribed]
  cases hf : s.frame? id with
  | none =>
    have hlength : s.cellMap.lengths id = none := by simp [cellMap, length?, hf]
    simp [hlength, observe, report]
  | some f =>
    have hcells : s.cellMap.cells id = fun t => (f.links.get? t).map Link.entry :=
      funext fun t => cells_cellMap hf t
    simp only [lengths_cellMap hf, observe, report, Answer.ofFrame, (h.fits hf).id_eq, hcells]
    refine Prod.ext (CellMap.ext ?_ ?_ rfl) rfl
    · funext g
      simp only [cellMap, CellMap.setFrame, length?, frame?, Table.get?_erase]
      split <;> rfl
    · funext g u
      simp only [cellMap, CellMap.setFrame, link?, frame?, Table.get?_erase]
      split <;> rfl

/-- Putting a link does what is prescribed, whether there is one already or not. -/
theorem observe_putLink (h : s.WellFormed) (frame timeslot : UInt16) (a : Link.Attributes) :
    observe ((Operation.putLink frame timeslot a).perform s) =
      s.cellMap.putLink s.maxLinks frame timeslot a := by
  rw [Operation.perform_putLink]
  rw [putLink_eq]
  simp only [CellMap.putLink, h.linkCount_eq_cellMap]
  cases hf : s.frame? frame with
  | none =>
    have hlength : s.cellMap.lengths frame = none := by simp [cellMap, length?, hf]
    simp [hlength, observe, report]
  | some f =>
    simp only [lengths_cellMap hf, cells_cellMap hf]
    split
    · rfl
    · cases hold : f.links.get? timeslot with
      | some old =>
        have hframe := (h.fits hf).frame_eq hold
        have htimeslot := (h.fits hf).timeslot_eq hold
        refine Prod.ext (cellMap_withLinks_insert hf timeslot _ s.linkCount s.nextHandle) ?_
        rw [← hframe, ← htimeslot]
        rfl
      | none =>
        simp only [Option.map_none]
        split
        · rfl
        · exact Prod.ext (cellMap_withLinks_insert hf timeslot _ _ _) rfl

/-- Making a link where there is none does what is prescribed. -/
theorem observe_addLink (h : s.WellFormed) (frame timeslot : UInt16) (a : Link.Attributes) :
    observe ((Operation.addLink frame timeslot a).perform s) =
      (Operation.addLink frame timeslot a).prescribed s.maxFrames s.maxLinks s.cellMap := by
  rw [Operation.perform_addLink, addLink_eq]
  simp only [Operation.prescribed]
  cases hl : s.link? frame timeslot with
  | some l => simp [cellMap, hl, observe, report]
  | none =>
    have hcell : s.cellMap.cells frame timeslot = none := by simp [cellMap, hl]
    simp only [hcell, Option.isSome_none, Bool.false_eq_true, if_false]
    rw [← Operation.perform_putLink]
    exact h.observe_putLink frame timeslot a

/-- Taking out a link by its handle does what is prescribed: the first that has the handle. -/
theorem observe_removeLink (h : s.WellFormed) (frame : UInt16) (handle : UInt32) :
    observe ((Operation.removeLink frame handle).perform s) =
      (Operation.removeLink frame handle).prescribed s.maxFrames s.maxLinks s.cellMap := by
  rw [Operation.perform_removeLink, removeLink_eq]
  simp only [Operation.prescribed]
  cases hf : s.frame? frame with
  | none =>
    have hlength : s.cellMap.lengths frame = none := by simp [cellMap, length?, hf]
    simp [hlength, observe, report]
  | some f =>
    simp only [lengths_cellMap hf, timeslotOf?_cellMap hf]
    cases hfind : f.links.entries.find? (·.2.handle = handle) with
    | none => rfl
    | some e =>
      obtain ⟨timeslot, l⟩ := e
      have hl : f.links.get? timeslot = some l :=
        Table.get?_eq_some_iff.2 (List.mem_of_find?_eq_some hfind)
      have hframe := (h.fits hf).frame_eq hl
      have htimeslot := (h.fits hf).timeslot_eq hl
      simp only [Option.map_some, cells_cellMap hf, hl]
      refine Prod.ext (cellMap_withLinks_erase hf timeslot _) ?_
      rw [← hframe, ← htimeslot]
      rfl

/-- Clearing a timeslot does what is prescribed, with or without a link there. -/
theorem observe_removeLinkAt (h : s.WellFormed) (frame timeslot : UInt16) :
    observe ((Operation.removeLinkAt frame timeslot).perform s) =
      (Operation.removeLinkAt frame timeslot).prescribed s.maxFrames s.maxLinks s.cellMap := by
  rw [Operation.perform_removeLinkAt, removeLinkAt_eq]
  simp only [Operation.prescribed]
  cases hf : s.frame? frame with
  | none =>
    have hlength : s.cellMap.lengths frame = none := by simp [cellMap, length?, hf]
    simp [hlength, observe, report]
  | some f =>
    simp only [lengths_cellMap hf]
    cases hl : f.links.get? timeslot with
    | none =>
      have hcell : s.cellMap.cells frame timeslot = none := by rw [cells_cellMap hf, hl]; rfl
      have hself := setCell_self s.cellMap frame timeslot
      rw [hcell] at hself
      simp only [hcell, hself, Option.map_none, observe, report]
    | some l =>
      have hframe := (h.fits hf).frame_eq hl
      have htimeslot := (h.fits hf).timeslot_eq hl
      simp only [cells_cellMap hf, hl, Option.map_some]
      refine Prod.ext (cellMap_withLinks_erase hf timeslot _) ?_
      rw [← hframe, ← htimeslot]
      rfl

/-- A lease is set at its place and nowhere else. -/
theorem cellMap_setLease (s : Schedule) (frame timeslot : UInt16) (lease : Option Link.Lease) :
    (s.setLease frame timeslot lease).cellMap =
      s.cellMap.setCell frame timeslot
        ((s.cellMap.cells frame timeslot).map fun e => { e with lease }) := by
  have hlengths : (s.setLease frame timeslot lease).cellMap.lengths = s.cellMap.lengths := by
    unfold Schedule.setLease
    split
    · rfl
    · rename_i f hf
      split
      · rfl
      · exact lengths_withLinks hf _
  have hhandle : (s.setLease frame timeslot lease).nextHandle = s.nextHandle := by
    unfold Schedule.setLease
    split
    · rfl
    · split <;> rfl
  refine CellMap.ext hlengths ?_ hhandle
  funext g u
  simp only [cellMap, CellMap.setCell, link?_setLease]
  split
  · rename_i hgu
    rw [hgu.1, hgu.2, Option.map_map, Option.map_map]
    rfl
  · rfl

/-- Setting a lease does what is prescribed. -/
theorem observe_setLease (h : s.WellFormed) (frame timeslot : UInt16)
    (lease : Option Link.Lease) :
    observe ((Operation.setLease frame timeslot lease).perform s) =
      (Operation.setLease frame timeslot lease).prescribed s.maxFrames s.maxLinks s.cellMap := by
  have hlink := (h.setLease frame timeslot lease).link?_eq frame timeslot
  rw [cellMap_setLease] at hlink
  simp only [Operation.perform_setLease, Operation.prescribed, observe, hlink, cellMap_setLease]
  simp [CellMap.setCell]

/-- An operation makes of the map what is prescribed, and answers what is prescribed. -/
theorem observe_perform (h : s.WellFormed) (op : Operation) :
    observe (op.perform s) = op.prescribed s.maxFrames s.maxLinks s.cellMap := by
  cases op with
  | addFrame id length => exact observe_addFrame id length
  | removeFrame id => exact h.observe_removeFrame id
  | clear => rfl
  | putLink frame timeslot a => exact h.observe_putLink frame timeslot a
  | addLink frame timeslot a => exact h.observe_addLink frame timeslot a
  | removeLink frame handle => exact h.observe_removeLink frame handle
  | removeLinkAt frame timeslot => exact h.observe_removeLinkAt frame timeslot
  | setLease frame timeslot lease => exact h.observe_setLease frame timeslot lease

end WellFormed

/-! ## Whatever is carried out -/

/-- What holds of the schedule holds of the one that is reported if it holds of each result. -/
theorem report_keeps {α : Type} {P : Schedule → Prop} {s : Schedule} {tell : α → Answer}
    {result : Except ScheduleError (Schedule × α)} (hs : P s)
    (hresult : ∀ s' x, result = .ok (s', x) → P s') : P (s.report tell result).1 := by
  cases result with
  | error _ => exact hs
  | ok p => exact hresult p.1 p.2 rfl

/-- Operations keep a schedule well-formed. -/
theorem WellFormed.perform {s : Schedule} (h : s.WellFormed) (op : Operation) :
    (op.perform s).1.WellFormed := by
  cases op with
  | addFrame id length =>
    rw [Operation.perform_addFrame]
    exact report_keeps h fun _ _ hok => h.addFrame hok
  | removeFrame id =>
    rw [Operation.perform_removeFrame]
    exact report_keeps h fun _ _ hok => h.removeFrame hok
  | clear => exact WellFormed.clear s
  | putLink frame timeslot a =>
    rw [Operation.perform_putLink]
    exact report_keeps h fun _ _ hok => h.putLink hok
  | addLink frame timeslot a =>
    rw [Operation.perform_addLink]
    exact report_keeps h fun _ _ hok => h.addLink hok
  | removeLink frame handle =>
    rw [Operation.perform_removeLink]
    exact report_keeps h fun _ _ hok => h.removeLink hok
  | removeLinkAt frame timeslot =>
    rw [Operation.perform_removeLinkAt]
    exact report_keeps h fun _ _ hok => h.removeLinkAt hok
  | setLease frame timeslot lease => exact h.setLease frame timeslot lease

/-- The capacities of a schedule. -/
def capacities (s : Schedule) : Nat × Nat := (s.maxFrames, s.maxLinks)

/-- Putting a link does not change the capacities. -/
theorem capacities_putLink {s s' : Schedule} {frame timeslot : UInt16} {a : Link.Attributes}
    {l : Link} (h : s.putLink frame timeslot a = .ok (s', l)) : s'.capacities = s.capacities := by
  rw [putLink_eq] at h
  repeat' split at h
  all_goals cases h
  all_goals rfl

/-- No operation changes the capacities. -/
theorem capacities_perform (s : Schedule) (op : Operation) :
    (op.perform s).1.capacities = s.capacities := by
  cases op with
  | clear => rfl
  | putLink frame timeslot a =>
    rw [Operation.perform_putLink]
    exact report_keeps (P := (·.capacities = s.capacities)) rfl fun _ _ hok =>
      capacities_putLink hok
  | addLink frame timeslot a =>
    rw [Operation.perform_addLink]
    refine report_keeps (P := (·.capacities = s.capacities)) rfl fun _ _ hok => ?_
    rw [addLink_eq] at hok
    split at hok
    · cases hok
    · exact capacities_putLink hok
  | setLease frame timeslot lease =>
    show (s.setLease frame timeslot lease).capacities = _
    unfold setLease
    repeat' split
    all_goals rfl
  | _ =>
    simp only [Operation.perform_addFrame, Operation.perform_removeFrame,
      Operation.perform_removeLink, Operation.perform_removeLinkAt]
    refine report_keeps (P := (·.capacities = s.capacities)) rfl fun _ _ hok => ?_
    simp only [addFrame_eq, removeFrame_eq, removeLink_eq, removeLinkAt_eq] at hok
    repeat' split at hok
    all_goals cases hok
    all_goals rfl

/-! ## Only what is named changes -/

/-- Other places are as they were. -/
theorem cells_setCell_of_ne {m : CellMap} {frame timeslot g u : UInt16}
    (h : ¬(g = frame ∧ u = timeslot)) (e : Option CellMap.Entry) :
    (m.setCell frame timeslot e).cells g u = m.cells g u := if_neg h

/-- Putting a link leaves other places. -/
theorem cells_putLink_of_ne {maxLinks : Nat} {m : CellMap} {frame timeslot g u : UInt16}
    (h : ¬(g = frame ∧ u = timeslot)) (a : Link.Attributes) :
    (m.putLink maxLinks frame timeslot a).1.cells g u = m.cells g u := by
  unfold CellMap.putLink
  repeat' split
  all_goals first | rfl | exact cells_setCell_of_ne h _

/-- What an operation does not name is as it was. -/
theorem cells_prescribed {maxFrames maxLinks : Nat} {m : CellMap} {g u : UInt16} {op : Operation}
    (h : ¬op.Names m g u) : (op.prescribed maxFrames maxLinks m).1.cells g u = m.cells g u := by
  cases op with
  | addFrame id length =>
    simp only [Operation.prescribed]
    repeat' split
    all_goals first | rfl | exact if_neg h
  | removeFrame id =>
    simp only [Operation.prescribed]
    split
    · rfl
    · exact if_neg h
  | clear => exact absurd trivial h
  | putLink frame timeslot a => exact cells_putLink_of_ne h a
  | addLink frame timeslot a =>
    simp only [Operation.prescribed]
    split
    · rfl
    · exact cells_putLink_of_ne h a
  | removeLink frame handle =>
    simp only [Operation.prescribed]
    split
    · rfl
    · split
      · rfl
      · rename_i timeslot hfind
        split
        · rfl
        · rename_i e hcell
          refine cells_setCell_of_ne (fun hgu => h ?_) _
          have hhandle := List.find?_some hfind
          simp only [hcell, Option.any_some, decide_eq_true_eq] at hhandle
          rw [hgu.1, hgu.2]
          exact ⟨rfl, e, hcell, hhandle⟩
  | removeLinkAt frame timeslot =>
    simp only [Operation.prescribed]
    split
    · rfl
    · exact cells_setCell_of_ne h _
  | setLease frame timeslot lease => exact cells_setCell_of_ne h _

/-- Putting a link leaves the slotframes. -/
theorem lengths_putLink (maxLinks : Nat) (m : CellMap) (frame timeslot : UInt16)
    (a : Link.Attributes) : (m.putLink maxLinks frame timeslot a).1.lengths = m.lengths := by
  unfold CellMap.putLink
  repeat' split
  all_goals rfl

/-- A slotframe that an operation does not name keeps its length. -/
theorem lengths_prescribed {maxFrames maxLinks : Nat} {m : CellMap} {g : UInt16} {op : Operation}
    (h : ¬op.NamesFrame g) : (op.prescribed maxFrames maxLinks m).1.lengths g = m.lengths g := by
  cases op with
  | addFrame id length =>
    simp only [Operation.prescribed]
    repeat' split
    all_goals first | rfl | exact if_neg h
  | removeFrame id =>
    simp only [Operation.prescribed]
    split
    · rfl
    · exact if_neg h
  | clear => exact absurd trivial h
  | putLink frame timeslot a => exact congrFun (lengths_putLink _ _ _ _ _) g
  | addLink frame timeslot a =>
    simp only [Operation.prescribed]
    split
    · rfl
    · exact congrFun (lengths_putLink _ _ _ _ _) g
  | removeLink frame handle =>
    simp only [Operation.prescribed]
    repeat' split
    all_goals rfl
  | removeLinkAt frame timeslot =>
    simp only [Operation.prescribed]
    split <;> rfl
  | setLease frame timeslot lease => rfl

namespace WellFormed

variable {s : Schedule}

/-- The map after an operation is the one that is prescribed. -/
theorem cellMap_perform (h : s.WellFormed) (op : Operation) :
    (op.perform s).1.cellMap = (op.prescribed s.maxFrames s.maxLinks s.cellMap).1 :=
  congrArg Prod.fst (h.observe_perform op)

/-- A place that an operation does not name shows what it showed. -/
theorem link?_perform (h : s.WellFormed) {op : Operation} {g u : UInt16}
    (hname : ¬op.Names s.cellMap g u) : (op.perform s).1.link? g u = s.link? g u := by
  rw [(h.perform op).link?_eq, h.link?_eq, h.cellMap_perform, cells_prescribed hname]

/-! ## Runs -/

/-- Runs keep a schedule well-formed. -/
theorem run (h : s.WellFormed) (ops : List Operation) : (s.run ops).1.WellFormed := by
  induction ops generalizing s with
  | nil => exact h
  | cons op ops ih => exact ih (h.perform op)

/-- A run makes of the map what is prescribed, and answers what is prescribed. -/
theorem observe_run (h : s.WellFormed) (ops : List Operation) :
    ((s.run ops).1.cellMap, (s.run ops).2) =
      prescribedRun s.maxFrames s.maxLinks s.cellMap ops := by
  induction ops generalizing s with
  | nil => rfl
  | cons op ops ih =>
    have hop := h.observe_perform op
    have hrest := ih (h.perform op)
    obtain ⟨hframes, hlinks⟩ := Prod.mk.inj (capacities_perform s op)
    rw [hframes, hlinks] at hrest
    simp only [Schedule.run, prescribedRun, ← hop, observe, ← hrest]

end WellFormed

/-- No run changes the capacities. -/
theorem capacities_run (s : Schedule) (ops : List Operation) :
    (s.run ops).1.capacities = s.capacities := by
  induction ops generalizing s with
  | nil => rfl
  | cons op ops ih => exact (ih (op.perform s).1).trans (capacities_perform s op)

/-- **A schedule is a plain map.**  Every run of operations from the schedule without slotframes
leaves a well-formed schedule; as a map, it is what the operations make of the map without
slotframes, and the operations answered what is prescribed of the map.  An operation that follows
does what is prescribed, changes only the places and slotframes that it names, and leaves the
schedule as it was if it is refused. -/
theorem run_eq_prescribed (maxFrames maxLinks : Nat) (ops : List Operation) :
    let s := ((empty maxFrames maxLinks).run ops).1
    s.WellFormed ∧ s.maxFrames = maxFrames ∧ s.maxLinks = maxLinks ∧
      (s.cellMap, ((empty maxFrames maxLinks).run ops).2) =
        prescribedRun maxFrames maxLinks .empty ops ∧
      (∀ frame timeslot, s.link? frame timeslot =
        (s.cellMap.cells frame timeslot).map (·.link frame timeslot)) ∧
      ∀ op : Operation,
        ((op.perform s).1.cellMap, (op.perform s).2) =
          op.prescribed maxFrames maxLinks s.cellMap ∧
        (∀ g u, ¬op.Names s.cellMap g u → (op.perform s).1.link? g u = s.link? g u) ∧
        (∀ g, ¬op.NamesFrame g →
          (op.perform s).1.cellMap.lengths g = s.cellMap.lengths g) ∧
        ∀ e, (op.perform s).2 = .error e → (op.perform s).1 = s := by
  intro s
  have hempty := WellFormed.empty maxFrames maxLinks
  have hs : s.WellFormed := hempty.run ops
  obtain ⟨hframes, hlinks⟩ : s.maxFrames = maxFrames ∧ s.maxLinks = maxLinks :=
    Prod.mk.inj (capacities_run (empty maxFrames maxLinks) ops)
  refine ⟨hs, hframes, hlinks, hempty.observe_run ops, hs.link?_eq, fun op => ⟨?_, ?_, ?_, ?_⟩⟩
  · rw [← hframes, ← hlinks]
    exact hs.observe_perform op
  · intro g u hname
    exact hs.link?_perform hname
  · intro g hname
    rw [hs.cellMap_perform, lengths_prescribed hname]
  · intro e herror
    exact perform_error herror

end Schedule

end SlottedMesh
