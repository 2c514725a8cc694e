import SlottedMesh.Proofs.Cells.Orderly
import SlottedMesh.Proofs.Station.Run

/-!
# Calls on a station

Besides the events of a station there are calls on it that have nothing to do with its planner:
links may be put in its schedule and taken out, also those that the planner put there, and the radio
gate may be used.  `Station.Call` is any of these, and `Station.calls` a sequence of them.

`Alike` says what no call changes: the settings, the planner, the channels, and the slotframes with
their lengths and the capacities.  `alike_calls` says so of all sequences of calls.
-/

namespace SlottedMesh

/-- A planner follows the plan it was made of, from the index it was made for. -/
theorem Planner.of?_eq_ok {plan : CellPlan} {index : UInt16} {slotLength : UInt32} {p : Planner}
    (h : Planner.of? plan index slotLength = .ok p) : p.plan = plan ∧ p.index = index := by
  unfold Planner.of? at h
  split at h
  · cases h
    exact ⟨rfl, rfl⟩
  · cases h

namespace Station

variable {settings : Settings} {driver : Gate.Driver} {s s' s'' s₀ : Station}

/-- The planner of a station follows the plan of the settings, -/
theorem CameUp.plan_eq (h : CameUp settings driver s) : s.planner.plan = settings.plan := by
  obtain ⟨index, -, hplanner⟩ := h.planner_eq
  exact (Planner.of?_eq_ok hplanner).1

/-- from the index of the node. -/
theorem CameUp.indexOfId?_eq (h : CameUp settings driver s) :
    settings.directory.indexOfId? settings.nodeId = some s.planner.index := by
  obtain ⟨index, hindex, hplanner⟩ := h.planner_eq
  rw [(Planner.of?_eq_ok hplanner).2, hindex]

/-- A station comes up with a well-formed schedule. -/
theorem CameUp.wellFormed (h : CameUp settings driver s) : s.schedule.WellFormed :=
  (Planner.pristine_layOut h.layOut_eq).1.wellFormed

/-! ## Calls -/

/-- What may be called on a station. -/
inductive Call where
  /-- An event. -/
  | event (e : Event)
  /-- A link is put in the schedule. -/
  | putLink (frame timeslot : UInt16) (attributes : Link.Attributes)
  /-- What is at a timeslot is taken out. -/
  | removeLinkAt (frame timeslot : UInt16)
  /-- A call at the radio gate. -/
  | gate (c : Gate.Call)

/-- The station after a call. -/
def call (s : Station) : Call → Station
  | .event e => s.step e
  | .putLink frame timeslot attributes => (s.putLink frame timeslot attributes).1
  | .removeLinkAt frame timeslot => (s.removeLinkAt frame timeslot).1
  | .gate c => s.callGate c

/-- The station after some calls. -/
def calls (s : Station) (cs : List Call) : Station := cs.foldl call s

/-- The two stations differ in nothing that calls leave as it was. -/
structure Alike (s s' : Station) : Prop where
  /-- The settings are the same. -/
  settings_eq : s'.settings = s.settings
  /-- The planner is the same. -/
  planner_eq : s'.planner = s.planner
  /-- The channels are the same. -/
  hopping_eq : s'.hopping = s.hopping
  /-- What is kept twice agrees. -/
  wellFormed : s'.schedule.WellFormed
  /-- The slotframes are the same. -/
  sameFrames : Schedule.SameFrames s.schedule s'.schedule

/-- What is alike twice is alike. -/
theorem Alike.trans (h : Alike s s') (h' : Alike s' s'') : Alike s s'' where
  settings_eq := h'.settings_eq.trans h.settings_eq
  planner_eq := h'.planner_eq.trans h.planner_eq
  hopping_eq := h'.hopping_eq.trans h.hopping_eq
  wellFormed := h'.wellFormed
  sameFrames := h.sameFrames.trans h'.sameFrames

/-- No event changes the channels. -/
@[simp] theorem hopping_step (s : Station) (e : Event) : (s.step e).hopping = s.hopping := by
  cases e with
  | tick now =>
    show (s.tick now).hopping = s.hopping
    rw [tick_eq]
    split <;> rfl
  | _ => rfl

/-- An operation on the schedule leaves all else, and if it is refused, the schedule too. -/
theorem alike_operate {α : Type} {u : Update α} (hu : u.Atomic) (hs : s.schedule.WellFormed)
    (hout : ∀ s' x, u.outcome s.schedule = .ok (s', x) →
      s'.WellFormed ∧ Schedule.SameFrames s.schedule s') :
    Alike s (s.operate u).1 := by
  unfold operate change
  simp only []
  rw [hu.perform_eq]
  cases hresult : u.outcome s.schedule with
  | error e => exact ⟨rfl, rfl, rfl, hs, .refl _⟩
  | ok r =>
    obtain ⟨hwellFormed, hframes⟩ := hout r.1 r.2 hresult
    exact ⟨rfl, rfl, rfl, hwellFormed, hframes⟩

/-- A call leaves the settings, the planner, the channels and the slotframes. -/
theorem alike_call (hs : s.schedule.WellFormed) (c : Call) : Alike s (s.call c) := by
  cases c with
  | event e =>
    have hrun := Planner.sameFrames_run (p := s.planner) (d := s.directory) hs
      (s.planned? e).toList
    rw [← schedule_step] at hrun
    exact ⟨settings_step s e, planner_step s e, hopping_step s e, hrun.1, hrun.2⟩
  | putLink frame timeslot attributes =>
    show Alike s (s.operate (.putLink frame timeslot attributes)).1
    refine alike_operate (Update.atomic_putLink _ _ _) hs fun s' l hput => ?_
    obtain ⟨-, hset⟩ := Schedule.setAt_putLink hs hput
    exact ⟨hset.wellFormed, hset.sameFrames⟩
  | removeLinkAt frame timeslot =>
    refine alike_operate (Update.atomic_removeLinkAt _ _) hs fun s' removed hremove => ?_
    have hset := Schedule.setAt_removeLinkAt hs hremove
    exact ⟨hset.wellFormed, hset.sameFrames⟩
  | gate c => exact ⟨rfl, rfl, rfl, hs, .refl _⟩

/-- Calls leave the settings, the planner, the channels and the slotframes as they were. -/
theorem alike_calls (hs : s.schedule.WellFormed) (cs : List Call) : Alike s (s.calls cs) := by
  induction cs generalizing s with
  | nil => exact ⟨rfl, rfl, rfl, hs, .refl _⟩
  | cons c cs ih =>
    have hfirst := alike_call hs c
    exact hfirst.trans (ih hfirst.wellFormed)

/-- So do events, which are calls. -/
theorem alike_run (hs : s.schedule.WellFormed) (es : List Event) : Alike s (s.run es) := by
  have hcalls := alike_calls hs (es.map .event)
  rwa [calls, List.foldl_map] at hcalls

end Station

end SlottedMesh
