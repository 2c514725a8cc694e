import SlottedMesh.Schedule.Basic

/-!
# Updates of a schedule

A `Change` reads and writes a schedule, one step after another.  It goes on until it is through or
until a step stops it; either way it leaves a schedule, and what was written before a stop stays
written.

An `Update` is a change that the schedule itself may refuse.  The updates here look at all that may
stand in their way and write only then, so that a refused update leaves the schedule as it was
(`Change.Atomic`).  What each of them makes of a schedule, or why it is refused, is told by one
equation, such as `putLink_eq`.
-/

namespace SlottedMesh

/-- What is done to a schedule, step by step; a step may stop it for a reason from `ε`. -/
abbrev Change (ε : Type) := EStateM ε Schedule

/-- An end with the schedule that it leaves, where a stop leaves `s`. -/
def Schedule.settle {ε α : Type} (s : Schedule) :
    Except ε (Schedule × α) → Schedule × Except ε α
  | .ok (s', x) => (s', .ok x)
  | .error e => (s, .error e)

namespace Change

variable {ε α β : Type}

/-- The schedule after a change, and how it ended. -/
def perform (c : Change ε α) (s : Schedule) : Schedule × Except ε α :=
  match c s with
  | .ok x s' => (s', .ok x)
  | .error e s' => (s', .error e)

/-- What a change makes of a schedule if it gets through, and otherwise what stops it. -/
def outcome (c : Change ε α) (s : Schedule) : Except ε (Schedule × α) :=
  match c.perform s with
  | (s', .ok x) => .ok (s', x)
  | (_, .error e) => .error e

/-- Wherever it stops, the change leaves the schedule as it was. -/
def Atomic (c : Change ε α) : Prop := ∀ s e, (c.perform s).2 = .error e → (c.perform s).1 = s

/-- The change only looks at the schedule. -/
def Looks (c : Change ε α) : Prop := ∀ s, (c.perform s).1 = s

/-- Nothing stops the change. -/
def GetsThrough (c : Change ε α) : Prop := ∀ s, ∃ x, (c.perform s).2 = .ok x

/-! ## What a change performs -/

/-- A result does nothing to the schedule. -/
@[simp] theorem perform_pure (x : α) (s : Schedule) :
    (pure x : Change ε α).perform s = (s, .ok x) := rfl

/-- A stop does nothing to the schedule. -/
@[simp] theorem perform_throw (e : ε) (s : Schedule) :
    (throw e : Change ε α).perform s = (s, .error e) := rfl

/-- A look at the schedule gives the schedule. -/
@[simp] theorem perform_get (s : Schedule) :
    (get : Change ε Schedule).perform s = (s, .ok s) := rfl

/-- A write always gets through. -/
@[simp] theorem perform_modify (f : Schedule → Schedule) (s : Schedule) :
    (modify f : Change ε Unit).perform s = (f s, .ok ()) := rfl

/-- A change goes on from the schedule that its first part leaves, unless that part stops. -/
theorem perform_bind (c : Change ε α) (f : α → Change ε β) (s : Schedule) :
    (c >>= f).perform s = match c.perform s with
      | (s', .ok x) => (f x).perform s'
      | (s', .error e) => (s', .error e) := by
  simp only [perform, bind, EStateM.bind]
  cases c s <;> rfl

/-- What is told of the end of a change does not bear on the schedule. -/
theorem perform_map (f : α → β) (c : Change ε α) (s : Schedule) :
    (f <$> c).perform s = ((c.perform s).1, (c.perform s).2.map f) := by
  simp only [perform, Functor.map, EStateM.map]
  cases c s <;> rfl

/-! ## All or nothing -/

/-- A change that is all or nothing performs what comes out, or leaves the schedule. -/
theorem Atomic.perform_eq {c : Change ε α} (h : c.Atomic) (s : Schedule) :
    c.perform s = s.settle (c.outcome s) := by
  have hs := h s
  unfold outcome
  rcases hc : c.perform s with ⟨s', e | x⟩
  · rw [hc] at hs
    exact Prod.ext (hs e rfl) rfl
  · rfl

/-- What is told of the end of a change does not bear on whether it is all or nothing. -/
theorem Atomic.map {c : Change ε α} (h : c.Atomic) (f : α → β) : (f <$> c).Atomic :=
  fun s e => by
    have hs := h s
    rw [perform_map]
    rcases hc : c.perform s with ⟨s', e' | x⟩
    · rw [hc] at hs
      exact fun _ => hs e' rfl
    · exact nofun

/-- A change that stops is all or nothing: it has done nothing. -/
theorem atomic_throw (e : ε) : (throw e : Change ε α).Atomic := fun _ _ _ => rfl

/-- A change that is all or nothing remains so if it is stopped before it begins. -/
theorem Atomic.unless {p : Prop} [Decidable p] {c : Change ε α} (h : c.Atomic) (e : ε) :
    (if p then throw e else c : Change ε α).Atomic := by
  split
  · exact atomic_throw e
  · exact h

/-- A change that nothing stops is all or nothing. -/
theorem GetsThrough.atomic {c : Change ε α} (h : c.GetsThrough) : c.Atomic := fun s e he => by
  obtain ⟨x, hx⟩ := h s
  rw [hx] at he
  cases he

/-- Nothing stops a result. -/
theorem getsThrough_pure (x : α) : (pure x : Change ε α).GetsThrough := fun _ => ⟨x, rfl⟩

/-- Nothing stops a write. -/
theorem getsThrough_modify (f : Schedule → Schedule) :
    (modify f : Change ε Unit).GetsThrough := fun _ => ⟨(), rfl⟩

/-- Nothing stops a change of which nothing stops the parts. -/
theorem GetsThrough.bind {c : Change ε α} {f : α → Change ε β} (hc : c.GetsThrough)
    (hf : ∀ x, (f x).GetsThrough) : (c >>= f).GetsThrough := fun s => by
  obtain ⟨x, hx⟩ := hc s
  rw [perform_bind]
  rcases hs : c.perform s with ⟨s', e | x'⟩
  · rw [hs] at hx
    cases hx
  · exact hf x' s'

/-- To look at the schedule is no more than a look. -/
theorem looks_get : (get : Change ε Schedule).Looks := fun _ => rfl

/-- What comes after a look is all or nothing together with the look. -/
theorem Looks.bind_atomic {c : Change ε α} {f : α → Change ε β} (hc : c.Looks)
    (hf : ∀ x, (f x).Atomic) : (c >>= f).Atomic := fun s e => by
  have hlooks := hc s
  rw [perform_bind]
  rcases hs : c.perform s with ⟨s', e' | x⟩
  · rw [hs] at hlooks
    exact fun _ => hlooks
  · rw [hs] at hlooks
    cases hlooks
    exact hf x _ e

end Change

/-! ## The updates -/

/-- A change that the schedule may refuse. -/
abbrev Update := Change ScheduleError

namespace Update

open Change

variable {id frame timeslot : UInt16}

/-- Look for the slotframe with this id. -/
def findFrame (id : UInt16) : Update Slotframe := do
  match (← get).frame? id with
  | none => throw (.unknownFrame id)
  | some f => return f

/-- Make a slotframe of `length` timeslots without links. -/
def addFrame (id length : UInt16) : Update Slotframe := do
  let s ← get
  match s.frame? id with
  | some _ => throw (.duplicateFrame id)
  | none =>
    match Divisor.of? length with
    | .error _ => throw (.emptyFrame id)
    | .ok divisor =>
      if s.maxFrames ≤ s.frames.size then throw (.full .slotframe s.maxFrames)
      else do
        let f : Slotframe := ⟨id, divisor, .empty⟩
        modify fun s => { s with frames := s.frames.insert id f }
        return f

/-- Take out a slotframe with all its links. -/
def removeFrame (id : UInt16) : Update Slotframe := do
  let f ← findFrame id
  modify fun s => { s with frames := s.frames.erase id }
  modify fun s => { s with linkCount := s.linkCount - f.links.size }
  return f

/-- Give the link at a timeslot these attributes; where there is none, make one. -/
def putLink (frame timeslot : UInt16) (attributes : Link.Attributes) : Update Link := do
  let f ← findFrame frame
  if f.length ≤ timeslot then throw (.timeslotOutOfRange frame timeslot f.length)
  else
    match f.links.get? timeslot with
    | some old => do
      let link := { old with toAttributes := attributes }
      modify (·.withLinks frame f (f.links.insert timeslot link))
      return link
    | none => do
      let s ← get
      if s.maxLinks ≤ s.linkCount then throw (.full .link s.maxLinks)
      else do
        let link : Link :=
          { attributes with handle := s.nextHandle, frame, timeslot, lease := none }
        modify fun s => { s with nextHandle := s.nextHandle + 1 }
        modify fun s => { s with linkCount := s.linkCount + 1 }
        modify (·.withLinks frame f (f.links.insert timeslot link))
        return link

/-- Make a link at a timeslot that has none. -/
def addLink (frame timeslot : UInt16) (attributes : Link.Attributes) : Update Link := do
  match (← get).link? frame timeslot with
  | some _ => throw (.timeslotOccupied frame timeslot)
  | none => putLink frame timeslot attributes

/-- Take out what a slotframe has at a timeslot. -/
def dropLink (frame : UInt16) (f : Slotframe) (timeslot : UInt16) : Update Unit := do
  modify (·.withLinks frame f (f.links.erase timeslot))
  modify fun s => { s with linkCount := s.linkCount - 1 }

/-- Take out the link with this handle. -/
def removeLink (frame : UInt16) (handle : UInt32) : Update Link := do
  let f ← findFrame frame
  match f.links.entries.find? (·.2.handle = handle) with
  | none => throw (.unknownLink frame handle)
  | some (timeslot, link) => do
    dropLink frame f timeslot
    return link

/-- Take out what is at a timeslot, if there is something. -/
def removeLinkAt (frame timeslot : UInt16) : Update (Option Link) := do
  let f ← findFrame frame
  match f.links.get? timeslot with
  | none => return none
  | some link => do
    dropLink frame f timeslot
    return some link

/-! ### A refused update leaves the schedule as it was -/

/-- To look for a slotframe is no more than a look, found or not. -/
theorem looks_findFrame (id : UInt16) : (findFrame id).Looks := fun s => by
  unfold findFrame
  simp only [perform_bind, perform_get]
  cases s.frame? id <;> rfl

/-- Making a slotframe is all or nothing: the slotframe is written once it is clear that it may
be. -/
theorem atomic_addFrame (id length : UInt16) : (addFrame id length).Atomic := by
  refine looks_get.bind_atomic fun s => ?_
  cases s.frame? id with
  | some f => exact atomic_throw _
  | none =>
    cases Divisor.of? length with
    | error e => exact atomic_throw _
    | ok divisor =>
      exact ((getsThrough_modify _).bind fun _ => getsThrough_pure _).atomic.unless _

/-- Taking out a slotframe is all or nothing: both writes come after the slotframe was found. -/
theorem atomic_removeFrame (id : UInt16) : (removeFrame id).Atomic :=
  (looks_findFrame id).bind_atomic fun _ =>
    ((getsThrough_modify _).bind fun _ => (getsThrough_modify _).bind fun _ =>
      getsThrough_pure _).atomic

/-- Putting a link is all or nothing: slotframe, timeslot and room are looked at before any
write. -/
theorem atomic_putLink (frame timeslot : UInt16) (attributes : Link.Attributes) :
    (putLink frame timeslot attributes).Atomic := by
  refine (looks_findFrame frame).bind_atomic fun f => Atomic.unless ?_ _
  cases f.links.get? timeslot with
  | some old => exact ((getsThrough_modify _).bind fun _ => getsThrough_pure _).atomic
  | none =>
    refine looks_get.bind_atomic fun s => Atomic.unless ?_ _
    exact ((getsThrough_modify _).bind fun _ => (getsThrough_modify _).bind fun _ =>
      (getsThrough_modify _).bind fun _ => getsThrough_pure _).atomic

/-- So is making a link, which looks at the timeslot once more. -/
theorem atomic_addLink (frame timeslot : UInt16) (attributes : Link.Attributes) :
    (addLink frame timeslot attributes).Atomic := by
  refine looks_get.bind_atomic fun s => ?_
  cases s.link? frame timeslot with
  | some l => exact atomic_throw _
  | none => exact atomic_putLink frame timeslot attributes

/-- Nothing stops taking out a link that was found. -/
theorem getsThrough_dropLink (frame : UInt16) (f : Slotframe) (timeslot : UInt16) :
    (dropLink frame f timeslot).GetsThrough :=
  (getsThrough_modify _).bind fun _ => getsThrough_modify _

/-- Taking out a link by its handle is all or nothing. -/
theorem atomic_removeLink (frame : UInt16) (handle : UInt32) :
    (removeLink frame handle).Atomic := by
  refine (looks_findFrame frame).bind_atomic fun f => ?_
  cases f.links.entries.find? (·.2.handle = handle) with
  | none => exact atomic_throw _
  | some e => exact ((getsThrough_dropLink _ _ _).bind fun _ => getsThrough_pure _).atomic

/-- Taking out what is at a timeslot is all or nothing. -/
theorem atomic_removeLinkAt (frame timeslot : UInt16) :
    (removeLinkAt frame timeslot).Atomic := by
  refine (looks_findFrame frame).bind_atomic fun f => ?_
  cases f.links.get? timeslot with
  | none => exact (getsThrough_pure _).atomic
  | some l => exact ((getsThrough_dropLink _ _ _).bind fun _ => getsThrough_pure _).atomic

end Update

namespace Schedule

/-! ## What comes out -/

/-- The schedule with a slotframe more, and that slotframe. -/
def addFrame (s : Schedule) (id length : UInt16) : Except ScheduleError (Schedule × Slotframe) :=
  (Update.addFrame id length).outcome s

/-- The schedule without a slotframe, and that slotframe. -/
def removeFrame (s : Schedule) (id : UInt16) : Except ScheduleError (Schedule × Slotframe) :=
  (Update.removeFrame id).outcome s

/-- The schedule with a link that has these attributes, and that link. -/
def putLink (s : Schedule) (frame timeslot : UInt16) (attributes : Link.Attributes) :
    Except ScheduleError (Schedule × Link) :=
  (Update.putLink frame timeslot attributes).outcome s

/-- The schedule with a new link, and that link. -/
def addLink (s : Schedule) (frame timeslot : UInt16) (attributes : Link.Attributes) :
    Except ScheduleError (Schedule × Link) :=
  (Update.addLink frame timeslot attributes).outcome s

/-- The schedule without the link with this handle, and that link. -/
def removeLink (s : Schedule) (frame : UInt16) (handle : UInt32) :
    Except ScheduleError (Schedule × Link) :=
  (Update.removeLink frame handle).outcome s

/-- The schedule with nothing at a timeslot, and what was there. -/
def removeLinkAt (s : Schedule) (frame timeslot : UInt16) :
    Except ScheduleError (Schedule × Option Link) :=
  (Update.removeLinkAt frame timeslot).outcome s

/-- What looks for a slotframe first is refused or goes on with what was found. -/
theorem outcome_findFrame_bind {α : Type} (id : UInt16) (f : Slotframe → Update α) (s : Schedule) :
    (Update.findFrame id >>= f).outcome s = match s.frame? id with
      | none => .error (.unknownFrame id)
      | some x => (f x).outcome s := by
  unfold Change.outcome Update.findFrame
  simp only [Change.perform_bind, Change.perform_get]
  cases s.frame? id <;> rfl

/-- When a slotframe is refused, and what comes out otherwise. -/
theorem addFrame_eq (s : Schedule) (id length : UInt16) :
    s.addFrame id length = match s.frame? id with
      | some _ => .error (.duplicateFrame id)
      | none =>
        match Divisor.of? length with
        | .error _ => .error (.emptyFrame id)
        | .ok divisor =>
          if s.maxFrames ≤ s.frames.size then .error (.full .slotframe s.maxFrames)
          else
            let f : Slotframe := ⟨id, divisor, .empty⟩
            .ok ({ s with frames := s.frames.insert id f }, f) := by
  show (get >>= _ : Update Slotframe).outcome s = _
  unfold Change.outcome
  simp only [Change.perform_bind, Change.perform_get]
  cases s.frame? id with
  | some f => rfl
  | none =>
    cases Divisor.of? length with
    | error e => rfl
    | ok divisor =>
      by_cases hfull : s.maxFrames ≤ s.frames.size
      · simp only [if_pos hfull, Change.perform_throw]
      · simp only [if_neg hfull]
        rfl

/-- Only a slotframe that is there can be taken out, and its links are counted off. -/
theorem removeFrame_eq (s : Schedule) (id : UInt16) :
    s.removeFrame id = match s.frame? id with
      | none => .error (.unknownFrame id)
      | some f =>
        .ok ({ s with
          frames := s.frames.erase id, linkCount := s.linkCount - f.links.size }, f) := by
  unfold removeFrame Update.removeFrame
  rw [outcome_findFrame_bind]
  rfl

/-- When a link is refused, and what comes out otherwise: a link that is there keeps its handle and
its lease, and a new one gets the next handle. -/
theorem putLink_eq (s : Schedule) (frame timeslot : UInt16) (attributes : Link.Attributes) :
    s.putLink frame timeslot attributes = match s.frame? frame with
      | none => .error (.unknownFrame frame)
      | some f =>
        if f.length ≤ timeslot then .error (.timeslotOutOfRange frame timeslot f.length)
        else match f.links.get? timeslot with
          | some old =>
            let link := { old with toAttributes := attributes }
            .ok (s.withLinks frame f (f.links.insert timeslot link), link)
          | none =>
            if s.maxLinks ≤ s.linkCount then .error (.full .link s.maxLinks)
            else
              let link : Link :=
                { attributes with handle := s.nextHandle, frame, timeslot, lease := none }
              .ok ({ s.withLinks frame f (f.links.insert timeslot link) with
                linkCount := s.linkCount + 1, nextHandle := s.nextHandle + 1 }, link) := by
  unfold putLink Update.putLink
  rw [outcome_findFrame_bind]
  cases s.frame? frame with
  | none => rfl
  | some f =>
    simp only
    split
    · rfl
    · cases f.links.get? timeslot with
      | some old => rfl
      | none =>
        unfold Change.outcome
        simp only [Change.perform_bind, Change.perform_get]
        by_cases hfull : s.maxLinks ≤ s.linkCount
        · simp only [if_pos hfull, Change.perform_throw]
        · simp only [if_neg hfull]
          rfl

/-- A link is made only where there is none. -/
theorem addLink_eq (s : Schedule) (frame timeslot : UInt16) (attributes : Link.Attributes) :
    s.addLink frame timeslot attributes = match s.link? frame timeslot with
      | some _ => .error (.timeslotOccupied frame timeslot)
      | none => s.putLink frame timeslot attributes := by
  unfold addLink Update.addLink
  unfold Change.outcome
  simp only [Change.perform_bind, Change.perform_get]
  cases s.link? frame timeslot <;> rfl

/-- Only a link that has the handle can be taken out, and it is counted off. -/
theorem removeLink_eq (s : Schedule) (frame : UInt16) (handle : UInt32) :
    s.removeLink frame handle = match s.frame? frame with
      | none => .error (.unknownFrame frame)
      | some f =>
        match f.links.entries.find? (·.2.handle = handle) with
        | none => .error (.unknownLink frame handle)
        | some (timeslot, link) =>
          .ok ({ s.withLinks frame f (f.links.erase timeslot) with
            linkCount := s.linkCount - 1 }, link) := by
  unfold removeLink Update.removeLink
  rw [outcome_findFrame_bind]
  cases s.frame? frame with
  | none => rfl
  | some f =>
    simp only
    cases f.links.entries.find? (·.2.handle = handle) <;> rfl

/-- Where there is nothing, taking it out leaves the schedule. -/
theorem removeLinkAt_eq (s : Schedule) (frame timeslot : UInt16) :
    s.removeLinkAt frame timeslot = match s.frame? frame with
      | none => .error (.unknownFrame frame)
      | some f =>
        match f.links.get? timeslot with
        | none => .ok (s, none)
        | some link =>
          .ok ({ s.withLinks frame f (f.links.erase timeslot) with
            linkCount := s.linkCount - 1 }, some link) := by
  unfold removeLinkAt Update.removeLinkAt
  rw [outcome_findFrame_bind]
  cases s.frame? frame with
  | none => rfl
  | some f =>
    simp only
    cases f.links.get? timeslot <;> rfl

/-- Putting a link shows it at its timeslot and changes nothing else. -/
theorem link?_putLink {s s' : Schedule} {frame timeslot : UInt16} {a : Link.Attributes}
    {link : Link} (h : s.putLink frame timeslot a = .ok (s', link)) (g t : UInt16) :
    s'.link? g t = if g = frame ∧ t = timeslot then some link else s.link? g t := by
  rw [putLink_eq] at h
  split at h
  · cases h
  · rename_i f hf
    split at h
    · cases h
    · split at h
      · cases h
        exact link?_withLinks_insert hf timeslot _ g t
      · split at h
        · cases h
        · cases h
          exact link?_withLinks_insert hf timeslot _ g t

/-- Clearing a timeslot gives what was there and changes nothing else. -/
theorem link?_removeLinkAt {s s' : Schedule} {frame timeslot : UInt16} {removed : Option Link}
    (h : s.removeLinkAt frame timeslot = .ok (s', removed)) :
    removed = s.link? frame timeslot ∧
      ∀ g t, s'.link? g t = if g = frame ∧ t = timeslot then none else s.link? g t := by
  rw [removeLinkAt_eq] at h
  split at h
  · cases h
  · rename_i f hf
    split at h
    · rename_i hlink
      cases h
      rw [link?_eq_get? hf]
      refine ⟨hlink.symm, fun g t => ?_⟩
      split
      · rename_i hgt
        rw [hgt.1, hgt.2, link?_eq_get? hf, hlink]
      · rfl
    · rename_i link hlink
      cases h
      rw [link?_eq_get? hf]
      exact ⟨hlink.symm, link?_withLinks_erase hf timeslot⟩

end Schedule

end SlottedMesh
