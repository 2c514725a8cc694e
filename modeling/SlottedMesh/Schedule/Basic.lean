import SlottedMesh.Schedule.Error
import SlottedMesh.Schedule.Slotframe

/-!
# Schedules

A `Schedule` holds the slotframes of a node and their links, no more of either than its capacities
allow.  `link?` is its view; the updates in `Schedule.Update` change it at one timeslot or at those
of one slotframe.

The number of links and the handle of the next link are kept beside the slotframes.  Handles count
up, one for each link that is made; a link that takes new attributes keeps its handle and its lease.
-/

namespace SlottedMesh

/-- The slotframes of a node and their links. -/
structure Schedule where
  /-- The slotframes by id. -/
  frames : Table Slotframe
  /-- How many slotframes there may be. -/
  maxFrames : Nat
  /-- How many links there may be in all slotframes together. -/
  maxLinks : Nat
  /-- How many links there are. -/
  linkCount : Nat
  /-- The handle that the next new link gets. -/
  nextHandle : UInt32

namespace Schedule

/-- How many slotframes there may be unless it is set otherwise. -/
def defaultMaxFrames : Nat := 4

/-- How many links there may be unless it is set otherwise. -/
def defaultMaxLinks : Nat := 32

/-- The schedule without slotframes, with these capacities. -/
def empty (maxFrames maxLinks : Nat) : Schedule := ⟨.empty, maxFrames, maxLinks, 0, 0⟩

/-! ## Slotframes -/

/-- The slotframe with this id. -/
def frame? (s : Schedule) (id : UInt16) : Option Slotframe := s.frames.get? id

/-- Take out everything.  Handles go on from where they were. -/
def clear (s : Schedule) : Schedule := { s with frames := .empty, linkCount := 0 }

/-! ## Links -/

/-- The link at a timeslot of a slotframe. -/
def link? (s : Schedule) (frame timeslot : UInt16) : Option Link :=
  (s.frame? frame).bind (·.links.get? timeslot)

/-- The links of all slotframes, by slotframe and timeslot. -/
def links (s : Schedule) : List Link := s.frames.values.flatMap (·.links.values)

/-- The schedule in which the slotframe `f`, known as `id`, has the links `links`. -/
def withLinks (s : Schedule) (id : UInt16) (f : Slotframe) (links : Table Link) : Schedule :=
  { s with frames := s.frames.insert id { f with links } }

/-- Give the link at a timeslot this lease, or none; nothing happens where there is no link. -/
def setLease (s : Schedule) (frame timeslot : UInt16) (lease : Option Link.Lease) : Schedule :=
  match s.frame? frame with
  | none => s
  | some f =>
    match f.links.get? timeslot with
    | none => s
    | some link => s.withLinks frame f (f.links.insert timeslot { link with lease })

/-! ## Looking up -/

/-- The links that are kept for a neighbour, by slotframe and timeslot. -/
def linksFor (s : Schedule) (a : Address) : List Link := s.links.filter (·.isFor a)

/-- The links that are on in slot `now`: from each slotframe at most one, by ascending slotframe,
each with the id of its slotframe. -/
def current (s : Schedule) (now : SlotNumber) : List (UInt16 × Link) :=
  s.frames.values.filterMap fun f => (f.current? now).map fun link => (f.id, link)

/-! ## What a schedule shows -/

/-- A slotframe that gets other links shows them, and all others what they showed. -/
theorem link?_withLinks (s : Schedule) (id : UInt16) (f : Slotframe) (links : Table Link)
    (frame timeslot : UInt16) :
    (s.withLinks id f links).link? frame timeslot =
      if frame = id then links.get? timeslot else s.link? frame timeslot := by
  simp only [link?, frame?, withLinks, Table.get?_insert]
  split <;> rfl

/-- A slotframe that is there shows its links. -/
theorem link?_eq_get? {s : Schedule} {frame : UInt16} {f : Slotframe} (h : s.frame? frame = some f)
    (timeslot : UInt16) : s.link? frame timeslot = f.links.get? timeslot := by
  simp [link?, h]

/-- The view after an operation that puts `link?` at a timeslot of an existing slotframe. -/
theorem link?_withLinks_insert {s : Schedule} {frame : UInt16} {f : Slotframe}
    (h : s.frame? frame = some f) (timeslot : UInt16) (link : Link) (g t : UInt16) :
    (s.withLinks frame f (f.links.insert timeslot link)).link? g t =
      if g = frame ∧ t = timeslot then some link else s.link? g t := by
  rw [link?_withLinks]
  by_cases hg : g = frame
  · subst hg
    simp [Table.get?_insert, link?_eq_get? h]
  · simp [hg]

/-- The view after an operation that clears a timeslot of an existing slotframe. -/
theorem link?_withLinks_erase {s : Schedule} {frame : UInt16} {f : Slotframe}
    (h : s.frame? frame = some f) (timeslot : UInt16) (g t : UInt16) :
    (s.withLinks frame f (f.links.erase timeslot)).link? g t =
      if g = frame ∧ t = timeslot then none else s.link? g t := by
  rw [link?_withLinks]
  by_cases hg : g = frame
  · subst hg
    simp [Table.get?_erase, link?_eq_get? h]
  · simp [hg]

/-- A schedule without slotframes shows nothing. -/
@[simp] theorem link?_empty (maxFrames maxLinks : Nat) (g t : UInt16) :
    (empty maxFrames maxLinks).link? g t = none := rfl

/-- Nor does one from which everything was taken out. -/
@[simp] theorem link?_clear (s : Schedule) (g t : UInt16) : s.clear.link? g t = none := rfl

/-- Setting a lease changes nothing but the lease of the link at the timeslot. -/
theorem link?_setLease (s : Schedule) (frame timeslot : UInt16) (lease : Option Link.Lease)
    (g t : UInt16) :
    (s.setLease frame timeslot lease).link? g t =
      if g = frame ∧ t = timeslot then (s.link? g t).map ({ · with lease }) else s.link? g t := by
  simp only [setLease]
  split
  · rename_i hf
    split
    · rename_i hgt
      simp [hgt.1, hgt.2, link?, hf]
    · rfl
  · rename_i f hf
    split
    · rename_i hlink
      split
      · rename_i hgt
        rw [hgt.1, hgt.2, link?_eq_get? hf, hlink]
        rfl
      · rfl
    · rename_i link hlink
      rw [link?_withLinks_insert hf]
      split
      · rename_i hgt
        rw [hgt.1, hgt.2, link?_eq_get? hf, hlink]
        rfl
      · rfl

end Schedule

end SlottedMesh
