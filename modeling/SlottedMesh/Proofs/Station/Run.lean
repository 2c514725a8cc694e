import SlottedMesh.Proofs.Cells.Events
import SlottedMesh.Proofs.Time.Elapsed
import SlottedMesh.Station.Events

/-!
# Runs of a station

A station comes up in slot zero with the schedule of its layout (`cameUp_of_bringUp`), and then
lives through events.  `Station.run` is a run of them, and `schedule_run` says that it does to the
schedule what a run of planner events does, which are those of `planned`.  In a `Paced` run slots
follow one another: a slot begins again or the next one does, but the station may join in any slot.
Where the station does not join, the planner's events are no further from the slot in which the run
begins than slots passed (`elapsed_planned`).
-/

namespace SlottedMesh.Station

/-- What happens to a station. -/
inductive Event where
  /-- A slot begins. -/
  | tick (now : SlotNumber)
  /-- The station joins the network. -/
  | join (now : SlotNumber)
  /-- The station becomes the root. -/
  | becomeRoot
  /-- A neighbour advertised a rank and a path metric. -/
  | heard (a : Address) (rank metric : UInt16)
  /-- A transmission came to its end. -/
  | transmitted (receiver : Address) (outcome : Outcome) (attempts : UInt16) (isControl : Bool)
  /-- A packet was received. -/
  | received (packet : Packet)
  /-- The station follows the time of another neighbour, or of none. -/
  | followTimeSource (a : Option Address)

/-- The station after an event. -/
def step (s : Station) : Event → Station
  | .tick now => s.tick now
  | .join now => s.join now
  | .becomeRoot => s.becomeRoot
  | .heard a rank metric => s.heard a rank metric
  | .transmitted receiver outcome attempts isControl =>
    s.transmitted receiver outcome attempts isControl
  | .received packet => s.received packet
  | .followTimeSource a => s.followTimeSource a

/-- The station after a run of events. -/
def run (s : Station) (es : List Event) : Station := es.foldl step s

/-- The event of the planner in an event of the station, if there is one. -/
def planned? (s : Station) : Event → Option Planner.Event
  | .tick now =>
    if now.since s.lastSweep < s.sweepInterval.toNat then none else some (.expire now)
  | .join now => some (.join now)
  | .transmitted receiver outcome _ isControl =>
    some (.sent ⟨s.address, receiver, isControl⟩ outcome s.now)
  | .received packet => some (.received packet s.now)
  | .followTimeSource a => some (.follow s.timeSource a)
  | .becomeRoot | .heard _ _ _ => none

/-- The events of the planner in a run. -/
def planned (s : Station) : List Event → List Planner.Event
  | [] => []
  | e :: es => (s.planned? e).toList ++ (s.step e).planned es

/-- The slot that the station is in after an event. -/
def nowAfter (s : Station) : Event → SlotNumber
  | .tick now | .join now => now
  | _ => s.now

/-- Slots follow one another: the slot that the station is in begins again, or the next one does. -/
def InPace (s : Station) : Event → Prop
  | .tick now => now = s.now ∨ now = s.now.advance 1
  | _ => True

/-- Slots follow one another all through the run. -/
def Paced (s : Station) : List Event → Prop
  | [] => True
  | e :: es => s.InPace e ∧ (s.step e).Paced es

instance (s : Station) : (e : Event) → Decidable (s.InPace e)
  | .tick now => inferInstanceAs (Decidable (now = s.now ∨ now = s.now.advance 1))
  | .join _ | .becomeRoot | .heard _ _ _ | .transmitted _ _ _ _ | .received _ |
    .followTimeSource _ => .isTrue trivial

instance decidablePaced (s : Station) : (es : List Event) → Decidable (s.Paced es)
  | [] => .isTrue trivial
  | e :: es => @instDecidableAnd _ _ _ ((s.step e).decidablePaced es)

/-- The station joins the network. -/
def Event.isJoin : Event → Bool
  | .join _ => true
  | _ => false

/-- How many slots pass in a run. -/
def slotsPassed (s : Station) : List Event → Nat
  | [] => 0
  | e :: es => (if s.nowAfter e = s.now then 0 else 1) + (s.step e).slotsPassed es

variable {s : Station} {e : Event}

/-! ## Coming up -/

/-- Steps one after the other succeed if each of them does. -/
theorem exists_of_bind_eq_ok {ε α β : Type} {x : Except ε α} {f : α → Except ε β} {y : β}
    (h : (x >>= f) = .ok y) : ∃ a, x = .ok a ∧ f a = .ok y := by
  cases x with
  | error e => cases h
  | ok a => exact ⟨a, rfl, h⟩

/-- A result is one before its error is told. -/
theorem eq_ok_of_mapError {ε ε' α : Type} {x : Except ε α} {f : ε → ε'} {a : α}
    (h : x.mapError f = .ok a) : x = .ok a := by
  cases x with
  | error e => cases h
  | ok a' =>
    cases h
    rfl

/-- What is not refused is there. -/
theorem eq_some_of_orRefuse {ε α : Type} {e : ε} {o : Option α} {a : α}
    (h : orRefuse e o = .ok a) : o = some a := by
  cases o with
  | none => cases h
  | some a' =>
    cases h
    rfl

/-- What holds of a station that came up with these settings and this driver. -/
structure CameUp (settings : Settings) (driver : Gate.Driver) (s : Station) : Prop where
  /-- The station keeps its settings. -/
  settings_eq : s.settings = settings
  /-- They have no problem. -/
  validate_eq : settings.validate = .ok ()
  /-- The id of the node has the address. -/
  address_eq : settings.directory.addressOf? settings.nodeId = some s.address
  /-- The planner follows the plan from the index of the node. -/
  planner_eq : ∃ index, settings.directory.indexOfId? settings.nodeId = some index ∧
    Planner.of? settings.plan index settings.schedule.slotLength = .ok s.planner
  /-- Links hop through the channels of the settings. -/
  hopping_eq : settings.hoppingSequence = .ok s.hopping
  /-- The schedule was held while it was laid out. -/
  gate_eq : s.gate = (Gate.ofDriver driver).acquire.release
  /-- The schedule is what its layout leaves. -/
  layOut_eq : s.planner.layOut.perform
    (.empty settings.schedule.maxFrames settings.schedule.maxLinks) = (s.schedule, .ok ())
  /-- The node has no place in a graph. -/
  router_eq : s.router = .fresh settings.routing.toObjective settings.routing.advertised
  /-- It has not heard of any neighbour. -/
  neighbors_eq : s.neighbors = .empty
  /-- It follows nobody's time. -/
  timeSource_eq : s.timeSource = none
  /-- It is in slot zero. -/
  now_eq : s.now = .zero
  /-- Sweeps count from there. -/
  lastSweep_eq : s.lastSweep = .zero

/-- A station that is brought up came up. -/
theorem cameUp_of_bringUp {settings : Settings} {driver : Gate.Driver}
    (h : bringUp settings driver = .ok s) : CameUp settings driver s := by
  unfold bringUp at h
  obtain ⟨_, hvalid, h⟩ := exists_of_bind_eq_ok h
  obtain ⟨address, haddress, h⟩ := exists_of_bind_eq_ok h
  obtain ⟨index, hindex, h⟩ := exists_of_bind_eq_ok h
  obtain ⟨planner, hplanner, h⟩ := exists_of_bind_eq_ok h
  obtain ⟨hopping, hhopping, h⟩ := exists_of_bind_eq_ok h
  obtain ⟨_, hlayOut, h⟩ := exists_of_bind_eq_ok h
  cases h
  exact
    { settings_eq := rfl
      validate_eq := eq_ok_of_mapError hvalid
      address_eq := eq_some_of_orRefuse haddress
      planner_eq := ⟨index, eq_some_of_orRefuse hindex, eq_ok_of_mapError hplanner⟩
      hopping_eq := eq_ok_of_mapError hhopping
      gate_eq := rfl
      layOut_eq := Prod.ext rfl (eq_ok_of_mapError hlayOut)
      router_eq := rfl
      neighbors_eq := rfl
      timeSource_eq := rfl
      now_eq := rfl
      lastSweep_eq := rfl }

/-! ## One event -/

/-- A slot begins with a sweep if the sweep interval has passed, and else without. -/
theorem tick_eq (s : Station) (now : SlotNumber) :
    s.tick now =
      if now.since s.lastSweep < s.sweepInterval.toNat then { s with now }
      else
        { (({ s with now } : Station).change (s.planner.sweep now)).1 with lastSweep := now } :=
  rfl

/-- A run without events changes nothing. -/
@[simp] theorem run_nil (s : Station) : s.run [] = s := rfl

/-- A run goes on from its first event. -/
@[simp] theorem run_cons (s : Station) (e : Event) (es : List Event) :
    s.run (e :: es) = (s.step e).run es := rfl

/-- The last event of a run comes after the others. -/
theorem run_append_singleton (s : Station) (es : List Event) (e : Event) :
    s.run (es ++ [e]) = (s.run es).step e := List.foldl_append

/-- The slot after an event. -/
@[simp] theorem now_step (s : Station) (e : Event) : (s.step e).now = s.nowAfter e := by
  cases e with
  | tick now =>
    show (s.tick now).now = now
    rw [tick_eq]
    split <;> rfl
  | _ => rfl

/-- An event leaves the planner, -/
@[simp] theorem planner_step (s : Station) (e : Event) : (s.step e).planner = s.planner := by
  cases e with
  | tick now =>
    show (s.tick now).planner = s.planner
    rw [tick_eq]
    split <;> rfl
  | _ => rfl

/-- the settings, -/
@[simp] theorem settings_step (s : Station) (e : Event) : (s.step e).settings = s.settings := by
  cases e with
  | tick now =>
    show (s.tick now).settings = s.settings
    rw [tick_eq]
    split <;> rfl
  | _ => rfl

/-- the directory, -/
@[simp] theorem directory_step (s : Station) (e : Event) : (s.step e).directory = s.directory := by
  unfold directory
  rw [settings_step]

/-- and the time between sweeps. -/
@[simp] theorem sweepInterval_step (s : Station) (e : Event) :
    (s.step e).sweepInterval = s.sweepInterval := by
  unfold sweepInterval
  rw [planner_step]

/-- An event does to the schedule what the event of the planner does. -/
theorem schedule_step (s : Station) (e : Event) :
    (s.step e).schedule = s.planner.run s.directory s.schedule (s.planned? e).toList := by
  cases e with
  | tick now =>
    show (s.tick now).schedule = _
    rw [tick_eq, planned?]
    split <;> rfl
  | _ => rfl

/-- The event of the planner happens in the slot that the station is then in. -/
theorem eq_nowAfter_of_planned {pe : Planner.Event} (h : s.planned? e = some pe) :
    ∀ now ∈ pe.slot?, now = s.nowAfter e := by
  intro now hnow
  cases e with
  | tick n =>
    rw [planned?] at h
    split at h
    · cases h
    · cases h
      cases hnow
      rfl
  | becomeRoot => cases h
  | heard a rank metric => cases h
  | followTimeSource a =>
    cases h
    cases hnow
  | _ =>
    cases h
    cases hnow
    rfl

/-! ## Runs -/

/-- A run leaves the planner, -/
@[simp] theorem planner_run (s : Station) (es : List Event) : (s.run es).planner = s.planner := by
  induction es generalizing s with
  | nil => rfl
  | cons e es ih => rw [run_cons, ih, planner_step]

/-- the settings, -/
@[simp] theorem settings_run (s : Station) (es : List Event) :
    (s.run es).settings = s.settings := by
  induction es generalizing s with
  | nil => rfl
  | cons e es ih => rw [run_cons, ih, settings_step]

/-- and the time between sweeps. -/
@[simp] theorem sweepInterval_run (s : Station) (es : List Event) :
    (s.run es).sweepInterval = s.sweepInterval := by
  unfold sweepInterval
  rw [planner_run]

/-- A run goes on from where its first part ended. -/
theorem run_append (s : Station) (es es' : List Event) : s.run (es ++ es') = (s.run es).run es' :=
  List.foldl_append

/-- A run does to the schedule what the run of planner events does. -/
theorem schedule_run (s : Station) (es : List Event) :
    (s.run es).schedule = s.planner.run s.directory s.schedule (s.planned es) := by
  induction es generalizing s with
  | nil => rfl
  | cons e es ih =>
    rw [run_cons, ih, schedule_step, planner_step, directory_step, planned, Planner.run,
      Planner.run, Planner.run, List.foldl_append]

/-- Without a join, the slot moves on by one where a slot passes and stays where none does. -/
theorem elapsed_nowAfter_le {t : SlotNumber} (hpace : s.InPace e) (hjoin : e.isJoin = false)
    (hroom : s.now.elapsed t + 1 < SlotNumber.modulus) :
    (s.nowAfter e).elapsed t ≤ s.now.elapsed t + if s.nowAfter e = s.now then 0 else 1 := by
  split
  · rename_i hsame
    rw [hsame, Nat.add_zero]
  · rename_i hne
    cases e with
    | tick now =>
      rcases hpace with rfl | rfl
      · exact absurd rfl hne
      · exact Nat.le_of_eq (SlotNumber.elapsed_advance_one hroom)
    | join now => cases hjoin
    | _ => exact absurd rfl hne

/-- In a paced run without joins, planner events are no further from `t` than the beginning of the
run was and slots passed. -/
theorem elapsed_planned {t : SlotNumber} {bound : Nat} (hbound : bound + 1 < SlotNumber.modulus)
    {es : List Event} (hpaced : s.Paced es) (hjoin : ∀ e ∈ es, e.isJoin = false)
    (hslots : s.now.elapsed t + s.slotsPassed es ≤ bound) :
    ∀ pe ∈ s.planned es, ∀ now ∈ pe.slot?, now.elapsed t ≤ bound := by
  induction es generalizing s with
  | nil => exact nofun
  | cons e es ih =>
    obtain ⟨hpace, hpaced⟩ := hpaced
    obtain ⟨he, hjoin⟩ := List.forall_mem_cons.1 hjoin
    rw [slotsPassed] at hslots
    have hnow := elapsed_nowAfter_le hpace he (t := t) (by omega)
    intro pe hpe now hslot
    rw [planned, List.mem_append, Option.mem_toList] at hpe
    rcases hpe with hpe | hpe
    · rw [eq_nowAfter_of_planned hpe now hslot]
      omega
    · refine ih hpaced hjoin ?_ pe hpe now hslot
      rw [now_step]
      omega

end SlottedMesh.Station
