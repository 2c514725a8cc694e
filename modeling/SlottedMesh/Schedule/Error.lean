/-!
# Refused schedule operations

Why an operation on a schedule is refused, and what is told about it.
-/

namespace SlottedMesh

/-- What a schedule has only so many of. -/
inductive Pool where
  | slotframe
  | link
deriving DecidableEq

/-- The word for the pool in messages. -/
def Pool.name : Pool → String
  | .slotframe => "slotframe"
  | .link => "link"

/-- Why an operation on a schedule is refused. -/
inductive ScheduleError where
  /-- There is a slotframe with this id already. -/
  | duplicateFrame (id : UInt16)
  /-- There is no slotframe with this id. -/
  | unknownFrame (id : UInt16)
  /-- A slotframe has one timeslot or more. -/
  | emptyFrame (id : UInt16)
  /-- The slotframe has no such timeslot. -/
  | timeslotOutOfRange (frame timeslot length : UInt16)
  /-- The timeslot has a link already. -/
  | timeslotOccupied (frame timeslot : UInt16)
  /-- All of a pool is in use. -/
  | full (pool : Pool) (capacity : Nat)
  /-- The slotframe has no link with this handle. -/
  | unknownLink (frame : UInt16) (handle : UInt32)
deriving DecidableEq

/-- What is told about the refusal. -/
def ScheduleError.message : ScheduleError → String
  | .duplicateFrame id => "slotframe " ++ toString id ++ " already exists"
  | .unknownFrame id => "slotframe " ++ toString id ++ " does not exist"
  | .emptyFrame id => "slotframe " ++ toString id ++ " has invalid length 0"
  | .timeslotOutOfRange frame timeslot length =>
    "timeslot " ++ toString timeslot ++ " is outside slotframe " ++ toString frame
      ++ " (length " ++ toString length ++ ")"
  | .timeslotOccupied frame timeslot =>
    "timeslot " ++ toString timeslot ++ " of slotframe " ++ toString frame ++ " is already occupied"
  | .full pool capacity =>
    "schedule full: " ++ pool.name ++ " pool of " ++ toString capacity ++ " exhausted"
  | .unknownLink frame handle =>
    "link " ++ toString handle ++ " not found in slotframe " ++ toString frame

end SlottedMesh
