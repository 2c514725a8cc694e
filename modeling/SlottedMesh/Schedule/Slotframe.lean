import SlottedMesh.Schedule.Link
import SlottedMesh.Schedule.Table
import SlottedMesh.Time.Divisor

/-!
# Slotframes

A slotframe is a cycle of timeslots that repeats for ever; the slot number's remainder by its length
says which of them is on.  Each timeslot holds at most one link.
-/

namespace SlottedMesh

/-- A repeating cycle of timeslots with its links. -/
structure Slotframe where
  /-- The number by which the slotframe is known. -/
  id : UInt16
  /-- Takes remainders by the length of the cycle. -/
  divisor : Divisor
  /-- The links by timeslot. -/
  links : Table Link

namespace Slotframe

/-- The number of timeslots in the cycle. -/
def length (f : Slotframe) : UInt16 := f.divisor.value

/-- The timeslot that is on in slot `now`. -/
def timeslotAt (f : Slotframe) (now : SlotNumber) : UInt16 := f.divisor.residue now

/-- The link that is on in slot `now`, if the timeslot of that slot has one. -/
def current? (f : Slotframe) (now : SlotNumber) : Option Link := f.links.get? (f.timeslotAt now)

end Slotframe

end SlottedMesh
