import SlottedMesh.Proofs.Station.Idle
import SlottedMesh.Trial

/-!
# What a trial comes to

The loop of a trial looks at the links that are on, and from what it finds makes transmissions and
receptions, which make links in turn.  Whatever it does, its station lives through events in pace
(`Lived`): what is known of runs of a station holds of trials.  In the second half of the slots it
makes nothing, so that the station only sees slots begin.

* `exists_lived_step` and `exists_lived_runFrom`: one slot and many, with traffic or without.
* `Lived.runFrom_quiet`: many slots without traffic, in which nothing happens but that they begin.
* `cells_of_run` is the main statement: a trial that is long enough ends without leases, with the
  links of the first layout and at most the one on which the node hears its time source.
-/

namespace SlottedMesh

/-- One slot more is the next slot. -/
theorem SlotNumber.ofNat_succ (k : Nat) : ofNat (k + 1) = (ofNat k).advance 1 := by
  apply toNat_inj.1
  rw [toNat_ofNat, toNat_advance, toNat_ofNat, UInt32.toNat_one, Nat.mod_add_mod]

namespace Station

/-- Runs in pace after each other are in pace. -/
theorem paced_append {s : Station} {es es' : List Event} (h : s.Paced es)
    (h' : (s.run es).Paced es') : s.Paced (es ++ es') := by
  induction es generalizing s with
  | nil => exact h'
  | cons e es ih => exact ⟨h.1, ih h.2 h'⟩

/-- What an event does, it does whatever the gate is. -/
theorem exists_step_gate (s : Station) (gate : Gate) (e : Event) :
    ∃ gate', ({ s with gate } : Station).step e = { s.step e with gate := gate' } := by
  cases e with
  | tick now =>
    show ∃ gate', ({ s with gate } : Station).tick now = { s.tick now with gate := gate' }
    by_cases hearly : now.since s.lastSweep < s.sweepInterval.toNat
    · have htick : s.tick now = { s with now } := if_pos hearly
      have htick' : ({ s with gate } : Station).tick now = { s with gate, now } := if_pos hearly
      rw [htick, htick']
      exact ⟨gate, rfl⟩
    · have htick : s.tick now =
          { (({ s with now } : Station).change (s.planner.sweep now)).1 with lastSweep := now } :=
        if_neg hearly
      have htick' : ({ s with gate } : Station).tick now =
          { (({ s with gate, now } : Station).change (s.planner.sweep now)).1 with
            lastSweep := now } := if_neg hearly
      rw [htick, htick']
      exact ⟨_, rfl⟩
  | _ => exact ⟨_, rfl⟩

end Station

namespace Trial

open Station (Event ticks)

variable {settings : Settings} {s₀ : Station} {es : List Event} {t t' : Trial} {slots k : Nat}

/-- The station of the trial is, but for its gate, what events in pace made of `s₀`, and it follows
the time of the parent. -/
structure Lived (s₀ : Station) (es : List Event) (t : Trial) : Prop where
  /-- Slots followed one another. -/
  paced : s₀.Paced es
  /-- The events made the station what it is. -/
  station_eq : ∃ gate, t.station = { s₀.run es with gate }
  /-- It follows the time of the parent. -/
  timeSource_eq : t.station.timeSource = some t.parent

/-- The trial's station is in the slot of the run, -/
theorem Lived.now_eq (h : Lived s₀ es t) : t.station.now = (s₀.run es).now := by
  obtain ⟨gate, hgate⟩ := h.station_eq
  rw [hgate]

/-- and has its schedule. -/
theorem Lived.schedule_eq (h : Lived s₀ es t) : t.station.schedule = (s₀.run es).schedule := by
  obtain ⟨gate, hgate⟩ := h.station_eq
  rw [hgate]

/-- The time source that is noted is the parent. -/
theorem Lived.sourceIndex?_eq (h : Lived s₀ es t) :
    (s₀.run es).sourceIndex? = s₀.settings.directory.indexOf? t.parent := by
  obtain ⟨gate, hgate⟩ := h.station_eq
  have hsource : (s₀.run es).timeSource = some t.parent := by
    rw [← h.timeSource_eq, hgate]
  rw [Station.sourceIndex?, hsource, Option.bind_some, Station.directory, Station.settings_run]

/-- One more event. -/
theorem Lived.event (h : Lived s₀ es t) {e : Event} (hpace : t.station.InPace e)
    (he : ∀ a, e ≠ .followTimeSource a) (hstation : t'.station = t.station.step e)
    (hparent : t'.parent = t.parent) : Lived s₀ (es ++ [e]) t' := by
  obtain ⟨gate, hgate⟩ := h.station_eq
  refine ⟨Station.paced_append h.paced ⟨?_, trivial⟩, ?_, ?_⟩
  · rw [hgate] at hpace
    cases e with
    | tick now => exact hpace
    | _ => trivial
  · rw [hstation, hgate, Station.run_append_singleton]
    exact Station.exists_step_gate _ gate e
  · rw [hstation, Station.timeSource_step he, h.timeSource_eq, hparent]

/-- The gate does not matter. -/
theorem Lived.gate (h : Lived s₀ es t) {gate : Gate}
    (hstation : t'.station = { t.station with gate }) (hparent : t'.parent = t.parent) :
    Lived s₀ es t' := by
  obtain ⟨gate', hgate⟩ := h.station_eq
  refine ⟨h.paced, ⟨gate, ?_⟩, ?_⟩
  · rw [hstation, hgate]
  · rw [hstation, hparent]
    exact h.timeSource_eq

/-! ## One slot -/

/-- What made `t'` of `t` are events of the slot that the station is in. -/
structure SameSlot (s₀ : Station) (t t' : Trial) : Prop where
  /-- The slot is the same. -/
  now_eq : t'.station.now = t.station.now
  /-- The station lived through events. -/
  exists_lived {es : List Event} : Lived s₀ es t → ∃ es', Lived s₀ es' t'

/-- Nothing done is in the same slot. -/
theorem SameSlot.refl (s₀ : Station) (t : Trial) : SameSlot s₀ t t := ⟨rfl, fun h => ⟨_, h⟩⟩

/-- What is done in the slot after what is done in it is done in it. -/
theorem SameSlot.trans {t'' : Trial} (h : SameSlot s₀ t t') (h' : SameSlot s₀ t' t'') :
    SameSlot s₀ t t'' := by
  refine ⟨h'.now_eq.trans h.now_eq, fun hlived => ?_⟩
  obtain ⟨es', hlived'⟩ := h.exists_lived hlived
  exact h'.exists_lived hlived'

/-- A transmission to a neighbour happens in its slot, -/
theorem sameSlot_transmitTo (t : Trial) (receiver : Address) :
    SameSlot s₀ t (t.transmitTo receiver) :=
  ⟨rfl, fun h => ⟨_, h.event (e := .transmitted receiver _ 1 false) trivial nofun rfl rfl⟩⟩

/-- one to all does, -/
theorem sameSlot_transmitShared (t : Trial) : SameSlot s₀ t t.transmitShared :=
  ⟨rfl, fun h => ⟨_, h.event (e := .transmitted t.parent .delivered 1 false) trivial nofun rfl rfl⟩⟩

/-- and so does a reception. -/
theorem sameSlot_receive (t : Trial) : SameSlot s₀ t t.receive :=
  ⟨rfl, fun h => ⟨_, h.event (e := .received _) trivial nofun rfl rfl⟩⟩

/-- A link is used in the slot that the station is in. -/
theorem sameSlot_useLink (slot : Nat) (t : Trial) (link : Link) :
    SameSlot s₀ t (useLink slot t link) := by
  have hreceive (t : Trial) :
      SameSlot s₀ t (if link.options.rx ∧ slot % 3 = 0 then t.receive else t) := by
    split
    · exact sameSlot_receive t
    · exact .refl s₀ t
  unfold useLink
  split
  · exact (sameSlot_transmitTo t _).trans (hreceive _)
  · split
    · exact (sameSlot_transmitShared t).trans (hreceive _)
    · exact hreceive t
  · exact hreceive t

/-- All uses of links happen in their slot. -/
theorem sameSlot_foldl_useLink (slot : Nat) (links : List Link) (t : Trial) :
    SameSlot s₀ t (links.foldl (useLink slot) t) := by
  induction links generalizing t with
  | nil => exact .refl s₀ t
  | cons link links ih => exact (sameSlot_useLink slot t link).trans (ih _)

/-- The trial when a slot has begun: the radio is on if a link is. -/
def enter (t : Trial) (slot : Nat) : Trial :=
  let station := t.station.tick (.ofNat slot)
  { t with station := station.requestRadio (if station.currentLinks.isEmpty then .off else .on) }

/-- When a slot has begun, the links that are on are used as long as there is traffic. -/
theorem step_eq (slots : Nat) (t : Trial) (slot : Nat) :
    t.step slots slot =
      if hasTraffic slots slot then
        ((t.enter slot).station.currentLinks.map (·.2)).foldl (useLink slot) (t.enter slot)
      else t.enter slot := by
  have hlinks : (t.enter slot).station.currentLinks =
      (t.station.tick (.ofNat slot)).currentLinks := rfl
  rw [hlinks]
  rcases hon : (t.station.tick (.ofNat slot)).currentLinks with _ | ⟨link, links⟩
  · simp [step, enter, hon]
  · simp [step, enter, hon]

/-- A slot begins. -/
theorem Lived.enter (h : Lived s₀ es t) (hpace : t.station.InPace (.tick (.ofNat k))) :
    Lived s₀ (es ++ [.tick (.ofNat k)]) (t.enter k) := by
  have htick : Lived s₀ (es ++ [.tick (.ofNat k)])
      { t with station := t.station.tick (.ofNat k) } := h.event hpace nofun rfl rfl
  exact htick.gate rfl rfl

/-- A slot that is entered is the present one. -/
theorem now_enter (t : Trial) (k : Nat) : (t.enter k).station.now = .ofNat k :=
  t.station.now_step (.tick (.ofNat k))

/-- After a slot, with traffic or without, the station is in it. -/
theorem exists_lived_step (h : Lived s₀ es t) (slots : Nat)
    (hpace : t.station.InPace (.tick (.ofNat k))) :
    ∃ es', Lived s₀ es' (t.step slots k) ∧ (t.step slots k).station.now = .ofNat k := by
  rw [step_eq]
  split
  · have hused : SameSlot s₀ (t.enter k) _ :=
      sameSlot_foldl_useLink k ((t.enter k).station.currentLinks.map (·.2)) (t.enter k)
    obtain ⟨es', hlived⟩ := hused.exists_lived (h.enter hpace)
    exact ⟨es', hlived, hused.now_eq.trans (t.now_enter k)⟩
  · exact ⟨_, h.enter hpace, t.now_enter k⟩

/-! ## Many slots -/

/-- After some slots, with traffic or without, the station is in the last of them. -/
theorem exists_lived_runFrom (h : Lived s₀ es t) (slots : Nat)
    (hpace : t.station.InPace (.tick (.ofNat k))) (left : Nat) :
    ∃ es', Lived s₀ es' (runFrom slots (left + 1) k t) ∧
      (runFrom slots (left + 1) k t).station.now = .ofNat (k + left) := by
  induction left generalizing k t es with
  | zero => exact exists_lived_step h slots hpace
  | succ left ih =>
    obtain ⟨es', h', hnow⟩ := exists_lived_step h slots hpace
    have hnext : (t.step slots k).station.InPace (.tick (.ofNat (k + 1))) := by
      right
      rw [hnow, SlotNumber.ofNat_succ]
    have hrest := ih h' hnext
    rw [Nat.add_right_comm] at hrest
    exact hrest

/-- In slots without traffic nothing happens but that they begin. -/
theorem Lived.runFrom_quiet (h : Lived s₀ es t) (hnow : t.station.now = .ofNat k)
    (hquiet : slots / 2 ≤ k + 1) (left : Nat) :
    Lived s₀ (es ++ ticks t.station.now left) (runFrom slots left (k + 1) t) := by
  induction left generalizing k t es with
  | zero =>
    rw [ticks, List.append_nil]
    exact h
  | succ left ih =>
    have hstep : t.step slots (k + 1) = t.enter (k + 1) := by
      rw [step_eq, if_neg (by simp [hasTraffic, hquiet])]
    have hnext : t.station.now.advance 1 = .ofNat (k + 1) := by
      rw [hnow, SlotNumber.ofNat_succ]
    have hentered : Lived s₀ (es ++ [.tick (.ofNat (k + 1))]) (t.enter (k + 1)) :=
      h.enter (.inr hnext.symm)
    have hrest := ih hentered (t.now_enter (k + 1)) (Nat.le_succ_of_le hquiet)
    rw [now_enter, ← hnext, List.append_assoc] at hrest
    rw [runFrom, hstep]
    exact hrest

/-- The slots of a trial one part after the other. -/
theorem runFrom_add (slots : Nat) (t : Trial) (n m k : Nat) :
    runFrom slots (n + m) k t = runFrom slots m (k + n) (runFrom slots n k t) := by
  induction n generalizing k t with
  | zero => rw [Nat.zero_add]; rfl
  | succ n ih =>
    rw [Nat.succ_add, runFrom, runFrom, ih, Nat.add_right_comm k 1 n, Nat.add_assoc]

/-! ## A whole trial -/

/-- What happens to the node before the first slot: it joins, follows the parent and hears both
neighbours. -/
def opening (parent child : Address) : List Event :=
  [.join .zero, .followTimeSource (some parent), .heard parent 1 0, .heard child 3 256]

/-- A trial starts if the node comes up. -/
theorem start_eq (hup : Station.bringUp settings .quiet = .ok s₀) :
    start settings = .ok
      ⟨s₀.run (opening (neighborAddress settings.nodeId 1) (neighborAddress settings.nodeId 2)),
        neighborAddress settings.nodeId 1, neighborAddress settings.nodeId 2, 0, 0, 0⟩ := by
  unfold start
  rw [hup]
  rfl

/-- It has lived through these events then and is in slot zero. -/
theorem exists_start (hup : Station.bringUp settings .quiet = .ok s₀) :
    ∃ t es, start settings = .ok t ∧ Lived s₀ es t ∧ t.station.now = .ofNat 0 := by
  let parent := neighborAddress settings.nodeId 1
  let child := neighborAddress settings.nodeId 2
  have hlived :
      Lived s₀ (opening parent child) ⟨s₀.run (opening parent child), parent, child, 0, 0, 0⟩ :=
    { paced := ⟨trivial, trivial, trivial, trivial, trivial⟩
      station_eq := ⟨(s₀.run (opening parent child)).gate, rfl⟩
      timeSource_eq := rfl }
  exact ⟨_, opening parent child, start_eq hup, hlived, rfl⟩

/-- A trial in which there is traffic in some slots: the station lives through events, and then as
many slots begin as there are in the second half. -/
theorem exists_lived_run (hup : Station.bringUp settings .quiet = .ok s₀)
    (htraffic : 0 < slots / 2) :
    ∃ t es, run settings slots = .ok t ∧ s₀.Paced es ∧
      Lived s₀ (es ++ ticks (s₀.run es).now (slots - slots / 2)) t := by
  obtain ⟨t₀, es₀, hstart, h₀, hnow₀⟩ := exists_start hup
  obtain ⟨left, hleft⟩ := Nat.exists_eq_add_one_of_ne_zero (Nat.pos_iff_ne_zero.1 htraffic)
  obtain ⟨es, h, hnow⟩ := exists_lived_runFrom h₀ slots (.inl hnow₀.symm) left
  have hhalf : slots / 2 ≤ 0 + left + 1 := by omega
  have hquiet := h.runFrom_quiet hnow hhalf (slots - slots / 2)
  rw [h.now_eq, Nat.add_assoc, ← runFrom_add] at hquiet
  have hslots : left + 1 + (slots - slots / 2) = slots := by omega
  rw [hslots] at hquiet
  refine ⟨_, es, ?_, h.paced, hquiet⟩
  unfold run
  rw [hstart]
  rfl

/-- **A trial ends without leases.**  The settings are of a node that comes up, the lifetime of
leases and the sweep interval are numbers of slots that the low words can tell, and as many slots
are in half of the trial.  Then when the trial is over, no link is lent.  The links of the first
layout are there, each with its handle and its channel offset, without lease, with all the options
that it had and, outside the unicast slotframes, as it was; and besides these there is at most one,
in the beacon slotframe, on which the node listens where its time source, the parent, sends. -/
theorem cells_of_run (hup : Station.bringUp settings .quiet = .ok s₀)
    (hfits : s₀.planner.lifetime.toNat + s₀.sweepInterval.toNat < 2 ^ 31)
    (hslots : s₀.planner.lifetime.toNat + s₀.sweepInterval.toNat ≤ slots / 2) :
    ∃ t, run settings slots = .ok t ∧ t.station.timeSource = some t.parent ∧
      (∀ g u l, t.station.schedule.link? g u = some l → l.lease = none) ∧
      (∀ g u l, s₀.schedule.link? g u = some l →
        ∃ l', t.station.schedule.link? g u = some l' ∧ l'.channelOffset = l.channelOffset ∧
          s₀.planner.Retained g l l') ∧
      ∃ further : Option UInt16,
        (∀ g u, (t.station.schedule.link? g u).isSome ↔
          (s₀.schedule.link? g u).isSome ∨ g = CellPlan.beaconFrame ∧ further = some u) ∧
        ∀ u ∈ further, s₀.schedule.link? CellPlan.beaconFrame u = none ∧
          t.station.schedule.attributes? CellPlan.beaconFrame u = some Planner.hearing ∧
          ∃ i, settings.directory.indexOf? t.parent = some i ∧
            u = i % settings.plan.beaconPeriod := by
  have h := Station.cameUp_of_bringUp hup
  have htraffic : 0 < slots / 2 := Nat.lt_of_lt_of_le
    (Nat.lt_of_lt_of_le s₀.sweepInterval_pos (Nat.le_add_left ..)) hslots
  obtain ⟨t, es, hrun, hpaced, hlived⟩ := exists_lived_run hup htraffic
  have hquiet : s₀.planner.lifetime.toNat + s₀.sweepInterval.toNat ≤ slots - slots / 2 := by omega
  have hunleased : ∀ g u l, t.station.schedule.link? g u = some l → l.lease = none := by
    intro g u l hl
    rw [hlived.schedule_eq] at hl
    exact Station.unleased_run_ticks hup hfits hpaced hquiet hl
  refine ⟨t, hrun, hlived.timeSource_eq, hunleased, ?_, ?_⟩
  · intro g u l hl
    rw [hlived.schedule_eq]
    exact Station.exists_retained_run h _ hl
  · rw [hlived.schedule_eq] at hunleased ⊢
    obtain ⟨further, hplaces, hfurther⟩ := Station.exists_further_of_unleased hup _ hunleased
    refine ⟨further, hplaces, fun u hu => ?_⟩
    obtain ⟨hvacant, hhears, hslot⟩ := hfurther u hu
    rw [hlived.sourceIndex?_eq, h.settings_eq] at hslot
    obtain ⟨i, hi, hslot⟩ := Option.bind_eq_some_iff.1 hslot
    rw [h.beaconSlot?_eq] at hslot
    exact ⟨hvacant, hhears, i, hi, (Option.some.inj hslot).symm⟩

/-! Leases live eight slots, and the node sweeps every second one.  After the ten slots with traffic
of a trial of twenty, it has a link that is lent to the parent; ten slots later it has none. -/

/-- Ten slots after the start there is a lease, and twenty after it there is none. -/
theorem cells_of_run_brief :
    (∃ t₀, start Station.briefSettings = .ok t₀ ∧
      ((runFrom 20 10 0 t₀).station.schedule.link? 2 1).any (·.lease.isSome)) ∧
    ∃ t, run Station.briefSettings 20 = .ok t ∧
      ∀ g u l, t.station.schedule.link? g u = some l → l.lease = none := by
  refine ⟨⟨_, rfl, by decide +kernel⟩, ?_⟩
  obtain ⟨s₀, hup, hsum⟩ : ∃ s₀, Station.bringUp Station.briefSettings .quiet = .ok s₀ ∧
      s₀.planner.lifetime.toNat + s₀.sweepInterval.toNat = 10 := ⟨_, rfl, rfl⟩
  obtain ⟨t, hrun, -, hunleased, -⟩ := @cells_of_run _ _ 20 hup (by omega) (by omega)
  exact ⟨t, hrun, hunleased⟩

end Trial

end SlottedMesh
