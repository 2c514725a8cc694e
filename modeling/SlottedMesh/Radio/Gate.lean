/-!
# The radio gate

While a schedule is being changed the radio must be left alone.  The gate counts how often the
schedule is held; requests to switch the radio wait in a queue and are handed over in the order of
their arrival when the last holder lets go.

Applying a request may make the radio's driver call the gate again.  Such a call can take hold of
the schedule, let go of it, and queue requests, but never starts a second hand-over: the radio is
busy, and the hand-over that is running goes on until the queue is empty.  A `Driver` may react to
all that has happened so far; only how many calls it makes in all is bounded, so every hand-over
ends.

The journal keeps every moment of the gate: what happened, and the depth and the queue right after
it.
-/

namespace SlottedMesh

/-- A request to switch the radio. -/
inductive RadioRequest where
  | on
  | off
deriving DecidableEq

namespace Gate

/-- What can be asked of a gate.  A guard takes hold of the schedule when it is made and lets go of
it when it is dropped. -/
inductive Call where
  /-- Switch the radio. -/
  | request (r : RadioRequest)
  /-- Take hold of the schedule. -/
  | acquire
  /-- Let go of the schedule. -/
  | release
deriving DecidableEq

/-- What happened at a gate. -/
inductive Event where
  /-- A request arrived. -/
  | issued (r : RadioRequest)
  /-- The schedule was taken hold of. -/
  | acquired
  /-- The schedule was let go of. -/
  | released
  /-- A request was handed to the radio. -/
  | applied (r : RadioRequest)
deriving DecidableEq

/-- The request that arrived in an event. -/
def Event.issued? : Event → Option RadioRequest
  | .issued r => some r
  | _ => none

/-- The request that was handed over in an event. -/
def Event.applied? : Event → Option RadioRequest
  | .applied r => some r
  | _ => none

/-- A moment of a gate. -/
structure Moment where
  /-- What just happened. -/
  event : Event
  /-- How many times the schedule is held right after it. -/
  depth : UInt32
  /-- The requests that wait right after it, the oldest first. -/
  pending : List RadioRequest
deriving DecidableEq

/-- The requests that arrived in these moments, of which the latest is the first of the list, in the
order of their arrival. -/
def issuedIn (moments : List Moment) : List RadioRequest :=
  moments.reverse.filterMap (·.event.issued?)

/-- The requests that were handed to the radio in these moments, of which the latest is the first of
the list, in the order in which it got them. -/
def appliedIn (moments : List Moment) : List RadioRequest :=
  moments.reverse.filterMap (·.event.applied?)

/-- The requests that wait at the latest of these moments. -/
def pendingIn : List Moment → List RadioRequest
  | [] => []
  | m :: _ => m.pending

/-- How a radio's driver behaves when a request is applied. -/
structure Driver where
  /-- The calls that it makes while a request is being applied, from all moments up to then, the
  latest first. -/
  script : List Moment → List Call
  /-- How many calls it will make in all; after so many it makes none. -/
  budget : Nat

/-- The driver that never calls the gate. -/
def Driver.quiet : Driver := ⟨fun _ => [], 0⟩

/-- The driver that answers `times` requests with the same calls each time and is quiet after. -/
def Driver.repeating (script : RadioRequest → List Call) (times : Nat) : Driver where
  script
    | ⟨.applied r, _, _⟩ :: past => if (appliedIn past).length < times then script r else []
    | _ => []
  budget := times * max (script .on).length (script .off).length

end Gate

/-- The gate between a schedule and the radio. -/
structure Gate where
  /-- How many times the schedule is held. -/
  depth : UInt32
  /-- The requests that wait, the oldest first. -/
  pending : List RadioRequest
  /-- The moments so far, the latest first. -/
  journal : List Gate.Moment
  /-- How the radio behaves from now on. -/
  driver : Gate.Driver

namespace Gate

/-- The gate, not held, of a radio with this driver. -/
def ofDriver (driver : Driver) : Gate := ⟨0, [], [], driver⟩

/-- Whether the schedule is held. -/
def isHeld (g : Gate) : Bool := 0 < g.depth

/-- Note in the journal what just happened. -/
def note (g : Gate) (e : Event) : Gate := { g with journal := ⟨e, g.depth, g.pending⟩ :: g.journal }

/-- Take hold of the schedule once more; the count stays at the most it can be. -/
def acquire (g : Gate) : Gate :=
  { g with depth := if g.depth = 0xFFFFFFFF then g.depth else g.depth + 1 }.note .acquired

/-- Let go of the schedule once and leave the queue alone. -/
def lower (g : Gate) : Gate := { g with depth := g.depth - 1 }.note .released

/-- Put a request at the end of the queue. -/
def enqueue (g : Gate) (r : RadioRequest) : Gate :=
  { g with pending := g.pending ++ [r] }.note (.issued r)

/-- A call at the gate; `handOver` is what becomes of the queue if the call finds that nobody holds
the schedule, or lets go of it as the last holder.  Letting go of what is not held does nothing. -/
def callWith (handOver : Gate → Gate) (g : Gate) : Call → Gate
  | .request r =>
    let g := g.enqueue r
    if g.isHeld then g else handOver g
  | .acquire => g.acquire
  | .release =>
    if g.depth = 0 then g
    else if g.depth = 1 then handOver g.lower
    else g.lower

/-- A call that the driver makes while a request is being applied.  The radio is busy, so the queue
is left to the hand-over that is running. -/
def nestedCall (g : Gate) (c : Call) : Gate := g.callWith id c

/-- The calls with which the driver reacts to what just happened. -/
def reaction (g : Gate) : List Call := (g.driver.script g.journal).take g.driver.budget

/-- Take so many calls from those that the driver has left. -/
def spend (g : Gate) (calls : Nat) : Gate :=
  { g with driver := ⟨g.driver.script, g.driver.budget - calls⟩ }

/-- Let the driver make the calls with which it reacts to what just happened. -/
def react (g : Gate) : Gate := g.reaction.foldl nestedCall (g.spend g.reaction.length)

/-- Hand a request to the radio, after which `rest` waits. -/
def apply (g : Gate) (r : RadioRequest) (rest : List RadioRequest) : Gate :=
  ({ g with pending := rest }.note (.applied r)).react

/-! ## Why a hand-over ends

Every call of the driver queues one request at most and is one of those that the driver has left. -/

/-- While the radio is busy a request waits. -/
@[simp] theorem nestedCall_request (g : Gate) (r : RadioRequest) :
    g.nestedCall (.request r) = g.enqueue r := by
  simp only [nestedCall, callWith, id, ite_self]

/-- The driver takes hold of the schedule as others do. -/
@[simp] theorem nestedCall_acquire (g : Gate) : g.nestedCall .acquire = g.acquire := rfl

/-- While the radio is busy nothing is handed over, and what is not held is left alone. -/
@[simp] theorem nestedCall_release (g : Gate) :
    g.nestedCall .release = if g.depth = 0 then g else g.lower := by
  simp only [nestedCall, callWith, id, ite_self]

/-- A call of the driver leaves what the driver has left. -/
theorem driver_nestedCall (g : Gate) (c : Call) : (g.nestedCall c).driver = g.driver := by
  cases c with
  | request r => rw [nestedCall_request]; rfl
  | acquire => rfl
  | release => rw [nestedCall_release]; split <;> rfl

/-- A call of the driver queues one request at most. -/
theorem length_pending_nestedCall_le (g : Gate) (c : Call) :
    (g.nestedCall c).pending.length ≤ g.pending.length + 1 := by
  cases c with
  | request r => simp [enqueue, note]
  | acquire => exact Nat.le_succ _
  | release => rw [nestedCall_release]; split <;> exact Nat.le_succ _

/-- Several of its calls leave it, too. -/
theorem driver_foldl_nestedCall (calls : List Call) (g : Gate) :
    (calls.foldl nestedCall g).driver = g.driver := by
  induction calls generalizing g with
  | nil => rfl
  | cons c calls ih => rw [List.foldl_cons, ih, driver_nestedCall]

/-- So many calls of the driver queue so many requests at most. -/
theorem length_pending_foldl_nestedCall_le (calls : List Call) (g : Gate) :
    (calls.foldl nestedCall g).pending.length ≤ g.pending.length + calls.length := by
  induction calls generalizing g with
  | nil => exact Nat.le_refl _
  | cons c calls ih =>
    have hc := length_pending_nestedCall_le g c
    have hcalls := ih (g.nestedCall c)
    simp only [List.foldl_cons, List.length_cons]
    omega

/-- The driver makes no more calls than it has left. -/
theorem length_reaction_le (g : Gate) : g.reaction.length ≤ g.driver.budget :=
  List.length_take_le _ _

/-- What a request sets off is paid for by the calls that the driver had left. -/
theorem length_pending_apply_le (g : Gate) (r : RadioRequest) (rest : List RadioRequest) :
    (g.apply r rest).pending.length + (g.apply r rest).driver.budget
      ≤ rest.length + g.driver.budget := by
  let applied := { g with pending := rest }.note (.applied r)
  have hcalls := length_pending_foldl_nestedCall_le applied.reaction
    (applied.spend applied.reaction.length)
  have hbudget : (g.apply r rest).driver.budget = g.driver.budget - applied.reaction.length := by
    simp only [apply, react, driver_foldl_nestedCall]
    rfl
  have hreaction : applied.reaction.length ≤ g.driver.budget := length_reaction_le applied
  have hpending : (g.apply r rest).pending.length ≤ rest.length + applied.reaction.length := hcalls
  omega

/-- Hand over the queue until it is empty. -/
def drain (g : Gate) : Gate :=
  match _h : g.pending with
  | [] => g
  | r :: rest => drain (g.apply r rest)
termination_by g.pending.length + g.driver.budget
decreasing_by
  have := length_pending_apply_le g r rest
  simp only [_h, List.length_cons]
  omega

/-! ## Calls from outside the driver -/

/-- A call from outside the driver. -/
def call (g : Gate) (c : Call) : Gate := g.callWith drain c

/-- Switch the radio now, or when the last holder lets go. -/
def request (g : Gate) (r : RadioRequest) : Gate := g.call (.request r)

/-- Let go of the schedule once; the last holder hands over the queue. -/
def release (g : Gate) : Gate := g.call .release

/-- The requests that arrived, in the order of their arrival. -/
def issued (g : Gate) : List RadioRequest := issuedIn g.journal

/-- The requests that were handed to the radio, in the order in which it got them. -/
def applied (g : Gate) : List RadioRequest := appliedIn g.journal

end Gate

end SlottedMesh
