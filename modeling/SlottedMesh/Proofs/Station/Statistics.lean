import SlottedMesh.Proofs.Cells.Peers
import SlottedMesh.Proofs.Schedule.Current
import SlottedMesh.Proofs.Station.Routing
import SlottedMesh.Proofs.Station.Trials

/-!
# The statistics of a trial

A trial counts its transmissions, and the table of neighbours counts the attempts to reach each
neighbour.  A transmission in a shared cell is to the parent, and one in a lent cell is to whomever
the link is kept for.  That this is the parent too holds of all links at all times: a link is kept
for a neighbour only after a packet was delivered to it, so that the first such link is the
parent's, and what is sent on it binds others to the parent alone.

* `binds_step`: an event of the station other than a delivery binds no link.
* `Tallied` is what holds of a trial on its way: links are kept for nobody but the parent, and its
  entry counts the transmissions of the trial, up to what sixteen bits can hold.
* `Tallied.useLink` and `Tallied.step`: the use of a link and a whole slot leave a trial so.
* `history` lists all that a trial goes through, and `counts_of_run` is the main statement.
-/

namespace SlottedMesh

/-! ## Counting -/

/-- To add to a number that was cut to sixteen bits and to cut the sum is to cut once. -/
theorem saturate16_toNat_add (m n : Nat) :
    saturate16 ((saturate16 m).toNat + n) = saturate16 (m + n) := by
  apply UInt16.toNat_inj.1
  rw [toNat_saturate16, toNat_saturate16, toNat_saturate16]
  omega

namespace Station

variable {s : Station} {e : Event} {a b : Address}

/-- What a neighbour advertises leaves its count, or makes an entry with nothing counted. -/
theorem txCount_noteAdvertised (o : Objective) (t : NeighborTable) (a : Address)
    (rank metric : UInt16) (b : Address) :
    ((noteAdvertised o t a rank metric).get? b).map (·.txCount) =
      if b = a then some ((t.get? a).elim 0 (·.txCount)) else (t.get? b).map (·.txCount) := by
  unfold noteAdvertised
  cases hentry : t.get? a with
  | none =>
    have hinsert : (t.insert { o.newNeighbor a rank with advertisedMetric := metric }).get? b =
        if b = a then some { o.newNeighbor a rank with advertisedMetric := metric }
        else t.get? b := NeighborTable.get?_insert_of_none hentry b
    simp only [hinsert]
    split <;> rfl
  | some n =>
    have hmodify : (t.modify a ({ · with rank, advertisedMetric := metric })).get? b =
        if b = a then (t.get? a).map ({ · with rank, advertisedMetric := metric })
        else t.get? b := by
      apply NeighborTable.get?_modify
      intro m
      rfl
    simp only [hmodify, hentry]
    split <;> rfl

/-- To hear of a neighbour leaves its count, and a new one has none. -/
theorem txCount_heard (s : Station) (a : Address) (rank metric : UInt16) (b : Address) :
    ((s.heard a rank metric).neighbors.get? b).map (·.txCount) =
      if b = a then some ((s.neighbors.get? a).elim 0 (·.txCount))
      else (s.neighbors.get? b).map (·.txCount) :=
  txCount_noteAdvertised s.router.objective s.neighbors a rank metric b

/-! ## Events -/

/-- Events keep the schedule well-formed. -/
theorem wellFormed_step (hs : s.schedule.WellFormed) (e : Event) :
    (s.step e).schedule.WellFormed := by
  rw [schedule_step]
  exact (Planner.sameFrames_run hs _).1

/-- Where a link is kept for a neighbour after an event, one was before, or the event is a delivery
to it. -/
theorem binds_step (hs : s.schedule.WellFormed) (h : (s.step e).schedule.Binds a) :
    s.schedule.Binds a ∨ ∃ attempts, e = .transmitted a .delivered attempts false := by
  rw [schedule_step] at h
  rcases Planner.binds_run hs h with hbefore | ⟨pe, hpe, hdelivers⟩
  · exact .inl hbefore
  · right
    rw [Option.mem_toList] at hpe
    cases e with
    | tick now =>
      rw [planned?] at hpe
      split at hpe
      · cases hpe
      · cases hpe
        cases hdelivers
    | transmitted receiver outcome attempts isControl =>
      cases hpe
      obtain ⟨hcontrol, hreceiver, houtcome⟩ := hdelivers
      have hcontrol : isControl = false := hcontrol
      have hreceiver : receiver = a := hreceiver
      rw [hcontrol, hreceiver, houtcome]
      exact ⟨attempts, rfl⟩
    | becomeRoot => cases hpe
    | heard b rank metric => cases hpe
    | join now =>
      cases hpe
      cases hdelivers
    | received packet =>
      cases hpe
      cases hdelivers
    | followTimeSource b =>
      cases hpe
      cases hdelivers

/-- After a run, a packet was delivered to whomever a link is kept for, unless one was before. -/
theorem binds_run (hs : s.schedule.WellFormed) {es : List Event} (h : (s.run es).schedule.Binds a) :
    s.schedule.Binds a ∨ ∃ attempts, .transmitted a .delivered attempts false ∈ es := by
  induction es generalizing s with
  | nil => exact .inl h
  | cons e es ih =>
    rcases ih (wellFormed_step hs e) h with hfirst | ⟨attempts, hmem⟩
    · rcases binds_step hs hfirst with hstart | ⟨attempts, rfl⟩
      · exact .inl hstart
      · exact .inr ⟨attempts, List.mem_cons_self ..⟩
    · exact .inr ⟨attempts, List.mem_cons_of_mem _ hmem⟩

end Station

namespace Trial

open Station (Event)

variable {settings : Settings} {s₀ : Station} {t t' : Trial} {slots slot : Nat} {a : Address}
  {link : Link} {links : List Link}

/-! ## All that a trial goes through -/

/-- The trial after the transmission on a link, if there is one. -/
def transmitOn (slot : Nat) (t : Trial) (link : Link) : Trial :=
  match link.options.tx, link.peer with
  | true, .unicast receiver => t.transmitTo receiver
  | true, _ => if link.options.shared ∧ slot % 7 = 0 then t.transmitShared else t
  | false, _ => t

/-- The use of a link is a transmission and then a reception, or one of them, or neither. -/
theorem useLink_eq (slot : Nat) (t : Trial) (link : Link) :
    useLink slot t link =
      if link.options.rx ∧ slot % 3 = 0 then (t.transmitOn slot link).receive
      else t.transmitOn slot link := rfl

/-- The trial after each transmission and after each use, where links are used in turn. -/
def uses (slot : Nat) : List Link → Trial → List Trial
  | [], _ => []
  | link :: links, t =>
    t.transmitOn slot link :: useLink slot t link :: uses slot links (useLink slot t link)

/-- The trial after a slot has begun and after each transmission and each use in it. -/
def stages (slots : Nat) (t : Trial) (slot : Nat) : List Trial :=
  t.enter slot ::
    if hasTraffic slots slot then
      uses slot ((t.enter slot).station.currentLinks.map (·.2)) (t.enter slot)
    else []

/-- All that a trial goes through in the slots from `slot` on, `left` of them. -/
def history (slots : Nat) : (left slot : Nat) → Trial → List Trial
  | 0, _, t => [t]
  | left + 1, slot, t =>
    (t :: t.stages slots slot) ++ history slots left (slot + 1) (t.step slots slot)

/-- The last of the uses of a slot is what they come to. -/
theorem getLast?_uses (slot : Nat) (links : List Link) (t : Trial) :
    (t :: uses slot links t).getLast? = some (links.foldl (useLink slot) t) := by
  induction links generalizing t with
  | nil => rfl
  | cons link links ih =>
    rw [uses, List.getLast?_cons_cons, List.getLast?_cons_cons, List.foldl_cons]
    exact ih _

/-- What a trial goes through in a slot ends with the trial after the slot. -/
theorem getLast?_stages (slots : Nat) (t : Trial) (slot : Nat) :
    (t.stages slots slot).getLast? = some (t.step slots slot) := by
  rw [stages, step_eq]
  split
  · exact getLast?_uses _ _ _
  · rfl

/-- All that it goes through ends with the trial after the last slot. -/
theorem getLast?_history (slots left slot : Nat) (t : Trial) :
    (history slots left slot t).getLast? = some (runFrom slots left slot t) := by
  induction left generalizing slot t with
  | zero => rfl
  | succ left ih =>
    rw [history, List.getLast?_append, ih]
    rfl

/-! ## What holds of it -/

/-- What holds of a trial on its way, the parent of which has the address `a`. -/
structure Tallied (a : Address) (t : Trial) : Prop where
  /-- The parent has this address. -/
  parent_eq : t.parent = a
  /-- What is kept twice in the schedule agrees. -/
  wellFormed : t.station.schedule.WellFormed
  /-- Links are kept for nobody else. -/
  eq_of_binds {b : Address} : t.station.schedule.Binds b → b = a
  /-- The entry of the parent counts the transmissions, as far as it can. -/
  entry : ∃ n, t.station.neighbors.get? a = some n ∧ n.txCount = saturate16 t.txCount

/-- An event that is not a delivery to anybody else, and after which the entry counts the
transmissions. -/
theorem Tallied.event (h : t.Tallied a) {e : Event}
    (hschedule : t'.station.schedule = (t.station.step e).schedule)
    (hdelivery : ∀ b attempts, e = .transmitted b .delivered attempts false → b = a)
    (hparent : t'.parent = t.parent)
    (hentry : ∃ n, t'.station.neighbors.get? a = some n ∧ n.txCount = saturate16 t'.txCount) :
    t'.Tallied a := by
  refine ⟨hparent.trans h.parent_eq, ?_, ?_, hentry⟩
  · rw [hschedule]
    exact Station.wellFormed_step h.wellFormed e
  · intro b hbinds
    rw [hschedule] at hbinds
    rcases Station.binds_step h.wellFormed hbinds with hbefore | ⟨attempts, heq⟩
    · exact h.eq_of_binds hbefore
    · exact hdelivery b attempts heq

/-- A transmission to the parent is counted in its entry. -/
theorem Tallied.entry_transmitted (h : t.Tallied a) {outcome : Outcome}
    (houtcome : outcome ≠ .other) :
    ∃ n, (t.station.transmitted a outcome 1 false).neighbors.get? a = some n ∧
      n.txCount = saturate16 (t.txCount + 1) := by
  obtain ⟨n, hn, hcount⟩ := h.entry
  have hneighbors : (t.station.transmitted a outcome 1 false).neighbors =
      t.station.neighbors.modify a (t.station.router.objective.learn outcome 1) := rfl
  rw [hneighbors, NeighborTable.get?_modify _ (Objective.address_learn _ _ _), if_pos rfl, hn]
  refine ⟨_, rfl, ?_⟩
  rw [Objective.txCount_learn _ houtcome, hcount]
  exact saturate16_toNat_add _ _

/-- A transmission to a neighbour keeps the tally, -/
theorem Tallied.transmitTo (h : t.Tallied a) : (t.transmitTo a).Tallied a := by
  refine h.event (e := .transmitted a _ 1 false) rfl (fun b attempts heq => ?_) rfl
    (h.entry_transmitted ?_)
  · injection heq with hreceiver
    exact hreceiver.symm
  · split <;> decide

/-- and so does one to all, -/
theorem Tallied.transmitShared (h : t.Tallied a) : t.transmitShared.Tallied a := by
  have hparent := h.parent_eq
  subst hparent
  refine h.event (e := .transmitted t.parent .delivered 1 false) rfl (fun b attempts heq => ?_) rfl
    (h.entry_transmitted (by decide))
  injection heq with hreceiver
  exact hreceiver.symm

/-- a reception, -/
theorem Tallied.receive (h : t.Tallied a) : t.receive.Tallied a := by
  refine h.event (e := .received _) rfl (fun b attempts heq => ?_) rfl h.entry
  cases heq

/-- and the beginning of a slot. -/
theorem Tallied.enter (h : t.Tallied a) (slot : Nat) : (t.enter slot).Tallied a := by
  refine h.event (e := .tick (.ofNat slot)) rfl (fun b attempts heq => ?_) rfl ?_
  · cases heq
  · have hneighbors : (t.enter slot).station.neighbors = t.station.neighbors :=
      Station.neighbors_tick t.station (.ofNat slot)
    rw [hneighbors]
    exact h.entry

/-- A transmission on a link that is kept for nobody but the parent. -/
theorem Tallied.transmitOn (h : t.Tallied a) (hlink : ∀ b, link.peer = .unicast b → b = a)
    (slot : Nat) : (t.transmitOn slot link).Tallied a := by
  unfold Trial.transmitOn
  split
  · rename_i receiver htx hpeer
    rw [hlink receiver hpeer]
    exact h.transmitTo
  · split
    · exact h.transmitShared
    · exact h
  · exact h

/-- So it is with the use of such a link. -/
theorem Tallied.useLink (h : t.Tallied a) (hlink : ∀ b, link.peer = .unicast b → b = a)
    (slot : Nat) : (useLink slot t link).Tallied a := by
  rw [useLink_eq]
  split
  · exact (h.transmitOn hlink slot).receive
  · exact h.transmitOn hlink slot

/-- Links are used in turn, none of which is kept for anybody but the parent. -/
theorem Tallied.uses (h : t.Tallied a)
    (hlinks : ∀ link ∈ links, ∀ b, link.peer = .unicast b → b = a) (slot : Nat) :
    ∀ t' ∈ uses slot links t, t'.Tallied a := by
  induction links generalizing t with
  | nil => exact List.forall_mem_nil _
  | cons link links ih =>
    obtain ⟨hlink, hlinks⟩ := List.forall_mem_cons.1 hlinks
    have hused := h.useLink hlink slot
    exact List.forall_mem_cons.2
      ⟨h.transmitOn hlink slot, List.forall_mem_cons.2 ⟨hused, ih hused hlinks⟩⟩

/-- The links that are on in a slot are kept for nobody but the parent. -/
theorem Tallied.eq_of_mem_currentLinks (h : t.Tallied a)
    (hlink : link ∈ t.station.currentLinks.map (·.2)) : ∀ b, link.peer = .unicast b → b = a := by
  intro b hpeer
  obtain ⟨⟨id, l⟩, hmem, rfl⟩ := List.mem_map.1 hlink
  obtain ⟨f, hf, hget⟩ := (Schedule.mem_current_iff h.wellFormed).1 hmem
  exact h.eq_of_binds ⟨id, _, l, Schedule.link?_eq_some_iff.2 ⟨f, hf, hget⟩, hpeer⟩

/-- All that a trial goes through in a slot.  The links that are used were on when the slot
began. -/
theorem Tallied.stages (h : t.Tallied a) (slots slot : Nat) :
    ∀ t' ∈ t.stages slots slot, t'.Tallied a := by
  have hentered := h.enter slot
  unfold Trial.stages
  refine List.forall_mem_cons.2 ⟨hentered, ?_⟩
  split
  · exact hentered.uses (fun link hlink => hentered.eq_of_mem_currentLinks hlink) slot
  · exact List.forall_mem_nil _

/-- A slot keeps the tally. -/
theorem Tallied.step (h : t.Tallied a) (slots slot : Nat) : (t.step slots slot).Tallied a :=
  h.stages slots slot _ (List.mem_of_getLast? (getLast?_stages slots t slot))

/-- All that a trial goes through. -/
theorem Tallied.history (h : t.Tallied a) (slots left slot : Nat) :
    ∀ t' ∈ history slots left slot t, t'.Tallied a := by
  induction left generalizing slot t with
  | zero => exact List.forall_mem_singleton.2 h
  | succ left ih =>
    exact List.forall_mem_append.2
      ⟨List.forall_mem_cons.2 ⟨h, h.stages slots slot⟩, ih (h.step slots slot) (slot + 1)⟩

/-! ## From the start -/

/-- When the node has heard both neighbours, nothing is counted for the parent yet.  For a node with
an id beyond a byte, the parent and the child may have one address. -/
theorem entry_opening (hup : Station.bringUp settings .quiet = .ok s₀) (parent child : Address) :
    ∃ n, (s₀.run (opening parent child)).neighbors.get? parent = some n ∧ n.txCount = 0 := by
  let s₁ := (s₀.join .zero).followTimeSource (some parent)
  have hempty : s₁.neighbors.get? parent = none := by
    show s₀.neighbors.get? parent = none
    rw [(Station.cameUp_of_bringUp hup).neighbors_eq]
    rfl
  have hparent : ((s₁.heard parent 1 0).neighbors.get? parent).map (·.txCount) = some 0 := by
    rw [Station.txCount_heard, if_pos rfl, hempty]
    rfl
  have hchild : (((s₁.heard parent 1 0).heard child 3 256).neighbors.get? parent).map (·.txCount) =
      some 0 := by
    rw [Station.txCount_heard]
    split
    · rename_i hsame
      obtain ⟨n, hn, hcount⟩ := Option.map_eq_some_iff.1 hparent
      rw [← hsame, hn, Option.elim_some, hcount]
    · exact hparent
  exact Option.map_eq_some_iff.1 hchild

/-- Until the first slot no link is kept for a neighbour. -/
theorem not_binds_opening (hup : Station.bringUp settings .quiet = .ok s₀)
    {parent child b : Address} {es : List Event} (hes : es ⊆ opening parent child) : ¬(s₀.run es).schedule.Binds b := by
  have h := Station.cameUp_of_bringUp hup
  intro hbinds
  rcases Station.binds_run h.wellFormed hbinds with hbefore | ⟨attempts, hmem⟩
  · exact Planner.not_binds_layOut h.layOut_eq hbefore
  · simpa [opening] using hes hmem

/-- When the first slot begins, nothing was transmitted, counted or bound. -/
theorem tallied_start (hup : Station.bringUp settings .quiet = .ok s₀)
    (hstart : start settings = .ok t) : t.Tallied (neighborAddress settings.nodeId 1) := by
  rw [start_eq hup] at hstart
  cases hstart
  have h := Station.cameUp_of_bringUp hup
  obtain ⟨n, hn, hcount⟩ :=
    entry_opening hup (neighborAddress settings.nodeId 1) (neighborAddress settings.nodeId 2)
  refine ⟨rfl, ?_, fun hbinds => ?_, n, hn, hcount⟩
  · rw [Station.schedule_run]
    exact (Planner.sameFrames_run h.wellFormed _).1
  · exact absurd hbinds (not_binds_opening hup (List.Subset.refl _))

/-- **The statistics of a trial agree.**  A trial of a node that comes up, of however many slots,
begins while links are kept for nobody, and goes through trials in all of which they are kept for
nobody but its parent.  When it is over, the parent has an entry in the table of neighbours, and
what is found of the link to it is the count of all transmissions of the trial, or the most that
sixteen bits can hold. -/
theorem counts_of_run (hup : Station.bringUp settings .quiet = .ok s₀) (slots : Nat) :
    (∀ es, es <+: opening (neighborAddress settings.nodeId 1) (neighborAddress settings.nodeId 2) →
      ∀ b, ¬(s₀.run es).schedule.Binds b) ∧
    ∃ t₀ t, start settings = .ok t₀ ∧ run settings slots = .ok t ∧
      (history slots slots 0 t₀).getLast? = some t ∧
      (∀ t' ∈ history slots slots 0 t₀, t'.parent = neighborAddress settings.nodeId 1 ∧
        ∀ b, t'.station.schedule.Binds b → b = t'.parent) ∧
      ∃ n, t.station.neighbors.get? t.parent = some n ∧ n.txCount.toNat = min 65535 t.txCount ∧
        .parentLink n.linkMetric n.txCount ∈ t.findings slots := by
  refine ⟨fun es hes b => not_binds_opening hup hes.subset, ?_⟩
  obtain ⟨t₀, es, hstart, -, -⟩ := exists_start hup
  have hlast := getLast?_history slots slots 0 t₀
  have htallied := (tallied_start hup hstart).history slots slots 0
  refine ⟨t₀, runFrom slots slots 0 t₀, hstart, ?_, hlast, fun t' ht' => ?_, ?_⟩
  · unfold run
    rw [hstart]
    rfl
  · have h := htallied t' ht'
    refine ⟨h.parent_eq, fun b hbinds => ?_⟩
    rw [h.parent_eq]
    exact h.eq_of_binds hbinds
  · have h := htallied _ (List.mem_of_getLast? hlast)
    obtain ⟨n, hn, hcount⟩ := h.entry
    rw [← h.parent_eq] at hn
    refine ⟨n, hn, ?_, ?_⟩
    · rw [hcount, toNat_saturate16, Nat.min_comm]
      rfl
    · simp [findings, hn]

/-! In the ten slots with traffic, the node transmits once in the shared cell and once in the cell
that its parent got by that. -/

/-- In twenty slots the node transmits twice, and both are counted of its parent. -/
theorem counts_of_run_brief :
    ∃ t, run Station.briefSettings 20 = .ok t ∧ t.txCount = 2 ∧
      ∃ n, t.station.neighbors.get? t.parent = some n ∧ n.txCount.toNat = 2 := by
  obtain ⟨s₀, hup⟩ : ∃ s₀, Station.bringUp Station.briefSettings .quiet = .ok s₀ := ⟨_, rfl⟩
  obtain ⟨-, t₀, t, -, hrun, -, -, n, hn, hcount, -⟩ := counts_of_run hup 20
  have htwo : (run Station.briefSettings 20).map (·.txCount) = .ok 2 := by decide +kernel
  rw [hrun] at htwo
  have htwo : t.txCount = 2 := Except.ok.inj htwo
  rw [htwo] at hcount
  exact ⟨t, hrun, htwo, n, hn, hcount⟩

end Trial

end SlottedMesh
