import SlottedMesh.Proofs.Cells.Orderly

/-!
# Permanent links

The links of the first layout are there for good: no event takes one away, gives it a lease or takes
an option from it.

* `shown` says what is left at a place where links are put one after another: the last one wins
  (`shown_eq_find?`).
* `Planner.laid` lists what a layout puts, and `laid_layOut` says that a layout that succeeds puts
  this and nothing else; `attributes?_layOut_beaconFrame` says what this is in the beacon slotframe.
* `Retained` is what events leave of such a link, and `Touch.retained` says that they do.
* `permanent_of_run` is the main statement, about all the links of a layout and any events.

Two different things keep these links.  In the unicast slotframes traffic may be merged into them
and sweeps pass over them, and there it is the missing lease, which no merge makes up for.  In the
beacon slotframe, where links are taken out by their timeslot alone, it is that a node has one such
link only, in its own timeslot, and that following a time source never acts there.
-/

namespace SlottedMesh

/-! ## Links put one after another -/

/-- Something that is put in a schedule. -/
structure Placing where
  /-- The slotframe. -/
  frame : UInt16
  /-- The timeslot. -/
  timeslot : UInt16
  /-- What is set of the link there. -/
  attributes : Link.Attributes

/-- What is set at a place after these were put, where `o` was set before. -/
def shown (xs : List Placing) (g t : UInt16) (o : Option Link.Attributes) :
    Option Link.Attributes :=
  xs.foldl (fun o x => if g = x.frame ∧ t = x.timeslot then some x.attributes else o) o

/-- What is put later is put on what was shown before. -/
theorem shown_append (xs ys : List Placing) (g t : UInt16) (o : Option Link.Attributes) :
    shown (xs ++ ys) g t o = shown ys g t (shown xs g t o) :=
  List.foldl_append

/-- Of what is put in one place the last one is left. -/
theorem shown_eq_find? (xs : List Placing) (g t : UInt16) (o : Option Link.Attributes) :
    shown xs g t o =
      ((xs.reverse.find? fun x => g = x.frame ∧ t = x.timeslot).map (·.attributes)).or o := by
  induction xs using List.reverseRecOn with
  | nil => rfl
  | append_singleton xs x ih =>
    rw [shown_append, ih, List.reverse_concat, List.find?_cons, shown, List.foldl_cons,
      List.foldl_nil]
    by_cases hplace : g = x.frame ∧ t = x.timeslot <;> simp [hplace]

/-- What is set at a place where nothing was is something that was put. -/
theorem exists_mem_of_shown {xs : List Placing} {g t : UInt16} {a : Link.Attributes}
    (h : shown xs g t none = some a) : ∃ x ∈ xs, x.attributes = a := by
  rw [shown_eq_find?, Option.or_none] at h
  obtain ⟨x, hx, rfl⟩ := Option.map_eq_some_iff.1 h
  exact ⟨x, List.mem_reverse.1 (List.mem_of_find?_eq_some hx), rfl⟩

/-- What is put in other slotframes leaves a place as it is. -/
theorem shown_of_forall_ne {xs : List Placing} {g t : UInt16} {o : Option Link.Attributes}
    (h : ∀ x ∈ xs, x.frame ≠ g) : shown xs g t o = o := by
  induction xs with
  | nil => rfl
  | cons x xs ih =>
    obtain ⟨hx, hxs⟩ := List.forall_mem_cons.1 h
    have hnot : ¬(g = x.frame ∧ t = x.timeslot) := fun hplace => hx hplace.1.symm
    rw [shown, List.foldl_cons, if_neg hnot]
    exact ih hxs

/-- To make a slotframe leaves as much room for links. -/
theorem Schedule.maxLinks_addFrame {s s' : Schedule} {id length : UInt16} {f : Slotframe}
    (h : s.addFrame id length = .ok (s', f)) : s'.maxLinks = s.maxLinks := by
  rw [addFrame_eq] at h
  split at h
  · cases h
  · split at h
    · cases h
    · split at h
      · cases h
      · cases h
        rfl

/-- What is set of the link at a place. -/
def Schedule.attributes? (s : Schedule) (g t : UInt16) : Option Link.Attributes :=
  (s.link? g t).map (·.toAttributes)

/-- Something is set where there is a link. -/
theorem Schedule.isSome_attributes? (s : Schedule) (g t : UInt16) :
    (s.attributes? g t).isSome = (s.link? g t).isSome := Option.isSome_map

/-- These were put in the schedule, and nothing else. -/
structure Schedule.Laid (xs : List Placing) (s s' : Schedule) : Prop where
  /-- What is kept twice agrees. -/
  wellFormed : s'.WellFormed
  /-- There is room for as many links. -/
  maxLinks_eq : s'.maxLinks = s.maxLinks
  /-- Each place shows what was put there last. -/
  attributes?_eq (g t : UInt16) : s'.attributes? g t = shown xs g t (s.attributes? g t)

/-- An edit that puts these and nothing else, if it succeeds. -/
def Edit.Lays {α : Type} (xs : List Placing) (e : Edit α) : Prop :=
  ∀ {s s' : Schedule} {x : α}, s.WellFormed → e.perform s = (s', .ok x) → s.Laid xs s'

namespace Edit

/-- A result puts nothing. -/
theorem lays_pure {α : Type} (x : α) : Lays [] (pure x) := by
  intro s s' y hs h
  cases h
  exact ⟨hs, rfl, fun _ _ => rfl⟩

/-- An edit puts what its first part puts and then what its second does. -/
theorem lays_bind {α β : Type} {xs ys : List Placing} {e : Edit α} {f : α → Edit β}
    (he : Lays xs e) (hf : ∀ x, Lays ys (f x)) : Lays (xs ++ ys) (e >>= f) := by
  intro s s' y hs h
  obtain ⟨s₁, x, hfirst, hrest⟩ := perform_bind_eq_ok h
  have hlaid := he hs hfirst
  have hlaid' := hf x hlaid.wellFormed hrest
  refine ⟨hlaid'.wellFormed, hlaid'.maxLinks_eq.trans hlaid.maxLinks_eq, fun g t => ?_⟩
  rw [hlaid'.attributes?_eq, hlaid.attributes?_eq, shown_append]

/-- What is put in a place that only exists if its period has a length. -/
theorem lays_place {α β : Type} {o : Option α} {xs : α → List Placing} {f : α → Edit β}
    (hf : ∀ x, o = some x → Lays (xs x) (f x)) :
    Lays (o.elim [] xs) (place o >>= f) := by
  intro s s' y hs h
  obtain ⟨s₁, x, hplace, hrest⟩ := perform_bind_eq_ok h
  obtain ⟨rfl, rfl⟩ := perform_place_eq_ok hplace
  exact hf x rfl hs hrest

/-- A slotframe is made without links. -/
theorem lays_addFrame (id length : UInt16) : Lays [] (addFrame id length) := by
  intro s s' x hs h
  obtain ⟨f, hadd⟩ := perform_addFrame_eq_ok h
  refine ⟨hs.addFrame hadd, Schedule.maxLinks_addFrame hadd, fun g t => ?_⟩
  rw [Schedule.attributes?, (Schedule.addFrame_eq_ok hadd).2]
  rfl

/-- Putting a link puts one. -/
theorem lays_putLink (cell : Cell) (options : Link.Options) (kind : Link.Kind) (peer : Link.Peer) :
    Lays [⟨cell.frame, cell.timeslot, ⟨options, kind, peer, cell.channelOffset⟩⟩]
      (putLink cell options kind peer) := by
  intro s s' x hs h
  obtain ⟨l, hput⟩ := perform_putLink_eq_ok h
  obtain ⟨hl, hset⟩ := Schedule.setAt_putLink hs hput
  refine ⟨hset.wellFormed, hset.sameFrames.maxLinks_eq, fun g t => ?_⟩
  rw [Schedule.attributes?, hset.link?_eq, shown, List.foldl_cons, List.foldl_nil]
  split
  · rw [Option.map_some, hl, Schedule.toAttributes_placed]
  · rfl

end Edit

namespace Planner

open Schedule Edit

/-! ## What a layout puts -/

/-- What is set of the link on which a node sends its beacons. -/
def announcing : Link.Attributes := ⟨.txOnly, .advertisingOnly, .broadcast, CellPlan.beaconFrame⟩

/-- What is set of the link that all nodes share. -/
def common : Link.Attributes := ⟨.all, .normal, .broadcast, CellPlan.sharedFrame⟩

/-- The link on which the node sends its beacons, in its own timeslot. -/
def laidBeacons (p : Planner) : List Placing :=
  (p.plan.beaconSlot? p.index).elim [] fun timeslot =>
    [⟨CellPlan.beaconFrame, timeslot, announcing⟩]

/-- The link that all nodes share, if the plan has one. -/
def laidShared (p : Planner) : List Placing :=
  p.plan.sharedPeriod.elim [] fun _ => [⟨CellPlan.sharedFrame, 0, common⟩]

/-- The fixed links that the node takes part in. -/
def laidFixed (p : Planner) : List Placing :=
  p.plan.fixedLinks.flatMap fun l => (p.fixedOptions? l).elim [] fun options =>
    [⟨CellPlan.unicastFrame, l.timeslot, ⟨options, .normal, .broadcast, CellPlan.unicastFrame⟩⟩]

/-- The link on which the node listens in its own cell. -/
def laidOwn (p : Planner) : List Placing :=
  (p.plan.cell? p.index).elim [] fun cell =>
    [⟨cell.frame, cell.timeslot, ⟨.rxOnly, .normal, .unbound, cell.channelOffset⟩⟩]

/-- What a layout puts in the unicast slotframes: fixed links where senders own the cells, and the
link in the own cell where receivers do. -/
def laidUnicast (p : Planner) : List Placing :=
  match p.plan.ownership with
  | .sender => p.laidFixed
  | .receiver => p.laidOwn

/-- All that a layout puts. -/
def laid (p : Planner) : List Placing := p.laidBeacons ++ (p.laidShared ++ p.laidUnicast)

variable {p : Planner} {d : Directory} {s : Schedule} {slot? : Option SlotNumber}

/-- The first part of a layout puts the link for the node's beacons, -/
theorem lays_layOutBeacons (p : Planner) : Lays p.laidBeacons p.layOutBeacons :=
  lays_bind (lays_addFrame _ _) fun _ => lays_place fun _ _ => lays_putLink _ _ _ _

/-- the second the link that all nodes share, -/
theorem lays_layOutShared (p : Planner) : Lays p.laidShared p.layOutShared := by
  unfold laidShared layOutShared
  cases p.plan.sharedPeriod with
  | none => exact lays_pure ()
  | some period => exact lays_bind (lays_addFrame _ _) fun _ => lays_putLink _ _ _ _

/-- and the third no link. -/
theorem lays_layOutUnicast (p : Planner) : Lays [] p.layOutUnicast := by
  refine lays_bind (lays_addFrame _ _) fun _ => ?_
  cases p.plan.spillPeriod with
  | none => exact lays_pure ()
  | some period => exact lays_addFrame _ _

/-- Then come the fixed links that the node takes part in, -/
theorem lays_layOutFixed (p : Planner) : Lays p.laidFixed p.layOutFixed := by
  unfold laidFixed layOutFixed
  induction p.plan.fixedLinks with
  | nil => exact lays_pure ()
  | cons l links ih =>
    refine lays_bind ?_ fun _ => ih
    simp only []
    cases p.fixedOptions? l with
    | none => exact lays_pure ()
    | some options => exact lays_putLink _ _ _ _

/-- or the link in its own cell. -/
theorem lays_layOutOwn (p : Planner) : Lays p.laidOwn p.layOutOwn :=
  lays_place fun _ _ => lays_putLink _ _ _ _

/-- A layout puts all of them, in this order. -/
theorem lays_layOut (p : Planner) : Lays p.laid p.layOut := by
  refine lays_bind (lays_layOutBeacons p) fun _ => lays_bind (lays_layOutShared p) fun _ =>
    lays_bind (lays_layOutUnicast p) fun _ => ?_
  cases p.plan.ownership with
  | sender => exact lays_layOutFixed p
  | receiver => exact lays_layOutOwn p

/-- A layout that succeeds puts what the list says, and nothing else. -/
theorem laid_layOut {maxFrames maxLinks : Nat} {x : Unit}
    (h : p.layOut.perform (.empty maxFrames maxLinks) = (s, .ok x)) :
    (empty maxFrames maxLinks).Laid p.laid s :=
  lays_layOut p (.empty maxFrames maxLinks) h

/-- What is put in a place that may not exist is put if it does. -/
theorem mem_elim_singleton {α β : Type} {o : Option α} {f : α → β} {x : β} :
    x ∈ (o.elim [] fun y => [f y]) ↔ ∃ y, o = some y ∧ x = f y := by
  cases o <;> simp

/-- In the beacon slotframe there is the link for the node's beacons alone. -/
theorem eq_of_mem_laidBeacons {x : Placing} (hx : x ∈ p.laidBeacons) :
    ∃ own, x = ⟨CellPlan.beaconFrame, own, announcing⟩ := by
  obtain ⟨own, -, rfl⟩ := mem_elim_singleton.1 hx
  exact ⟨own, rfl⟩

/-- In the shared slotframe there is the common link alone. -/
theorem eq_of_mem_laidShared {x : Placing} (hx : x ∈ p.laidShared) :
    x = ⟨CellPlan.sharedFrame, 0, common⟩ := by
  obtain ⟨period, -, rfl⟩ := mem_elim_singleton.1 hx
  rfl

/-- A fixed link is put if the node has options in it. -/
theorem mem_laidFixed_iff {x : Placing} :
    x ∈ p.laidFixed ↔ ∃ l ∈ p.plan.fixedLinks, ∃ options, p.fixedOptions? l = some options ∧
      x = ⟨CellPlan.unicastFrame, l.timeslot,
        ⟨options, .normal, .broadcast, CellPlan.unicastFrame⟩⟩ := by
  simp only [laidFixed, List.mem_flatMap, mem_elim_singleton]

/-- In its own cell the node listens to everyone. -/
theorem eq_of_mem_laidOwn {x : Placing} (hx : x ∈ p.laidOwn) :
    ∃ cell, p.plan.cell? p.index = some cell ∧
      x = ⟨cell.frame, cell.timeslot, ⟨.rxOnly, .normal, .unbound, cell.channelOffset⟩⟩ :=
  mem_elim_singleton.1 hx

/-- What is laid for unicast traffic is laid in unicast slotframes. -/
theorem frame_mem_of_mem_laidUnicast {x : Placing} (hx : x ∈ p.laidUnicast) :
    x.frame ∈ p.plan.unicastFrames := by
  unfold laidUnicast at hx
  split at hx
  · obtain ⟨l, -, options, -, rfl⟩ := mem_laidFixed_iff.1 hx
    unfold CellPlan.unicastFrames
    split <;> exact List.mem_cons_self ..
  · obtain ⟨cell, hcell, rfl⟩ := eq_of_mem_laidOwn hx
    exact (CellPlan.cell?_eq_some hcell).1

/-- In the beacon slotframe a layout puts one link, in the own timeslot. -/
theorem shown_laid_beaconFrame (p : Planner) (t : UInt16) :
    shown p.laid CellPlan.beaconFrame t none =
      if p.plan.beaconSlot? p.index = some t then some announcing else none := by
  have hshared : ∀ x ∈ p.laidShared, x.frame ≠ CellPlan.beaconFrame := fun x hx => by
    rw [eq_of_mem_laidShared hx]
    decide
  have hunicast : ∀ x ∈ p.laidUnicast, x.frame ≠ CellPlan.beaconFrame := fun x hx =>
    CellPlan.ne_beaconFrame (frame_mem_of_mem_laidUnicast hx)
  rw [laid, shown_append, shown_append, shown_of_forall_ne hunicast, shown_of_forall_ne hshared]
  unfold laidBeacons
  cases p.plan.beaconSlot? p.index with
  | none => rfl
  | some own =>
    simp only [Option.elim_some, shown, List.foldl_cons, List.foldl_nil, true_and,
      Option.some.injEq, eq_comm]

/-- After a layout that succeeds, the one link in the beacon slotframe is that for the own
beacons. -/
theorem attributes?_layOut_beaconFrame {maxFrames maxLinks : Nat} {x : Unit}
    (h : p.layOut.perform (.empty maxFrames maxLinks) = (s, .ok x)) (t : UInt16) :
    s.attributes? CellPlan.beaconFrame t =
      if p.plan.beaconSlot? p.index = some t then some announcing else none :=
  ((laid_layOut h).attributes?_eq CellPlan.beaconFrame t).trans (shown_laid_beaconFrame p t)

/-! ## What events leave of it -/

/-- Options contain others if each of these is one of them. -/
theorem contains_iff {x y : Link.Options} :
    x.contains y = true ↔
      (y.tx = true → x.tx = true) ∧ (y.rx = true → x.rx = true) ∧
        (y.shared = true → x.shared = true) := by
  simp [Link.Options.contains, Link.Options.without, Link.Options.none, imp_iff_not_or]

/-- What is left of a permanent link. -/
structure Retained (p : Planner) (frame : UInt16) (l l' : Link) : Prop where
  /-- It is the same link. -/
  handle_eq : l'.handle = l.handle
  /-- It has no lease. -/
  lease_eq : l'.lease = none
  /-- No option is gone. -/
  contains : l'.options.contains l.options = true
  /-- Outside the unicast slotframes nothing is changed. -/
  eq_of_not_mem : frame ∉ p.plan.unicastFrames → l' = l

variable {g t : UInt16} {l l' l'' : Link} {o o' : Option Link}

/-- A permanent link retains itself. -/
theorem retained_self (hl : l.lease = none) : p.Retained g l l := by
  exact ⟨rfl, hl, contains_iff.2 ⟨id, id, id⟩, fun _ => rfl⟩

/-- What is left of what was left is left. -/
theorem Retained.trans (h : p.Retained g l l') (h' : p.Retained g l' l'') :
    p.Retained g l l'' := by
  refine ⟨h'.handle_eq.trans h.handle_eq, h'.lease_eq, ?_, fun hg => ?_⟩
  · obtain ⟨htx, hrx, hshared⟩ := contains_iff.1 h.contains
    obtain ⟨htx', hrx', hshared'⟩ := contains_iff.1 h'.contains
    exact contains_iff.2 ⟨htx' ∘ htx, hrx' ∘ hrx, hshared' ∘ hshared⟩
  · rw [h'.eq_of_not_mem hg, h.eq_of_not_mem hg]

/-- A link that is merged into keeps its handle. -/
theorem handle_merged {cell : Cell} {added : Link.Options} {peer : Option Link.Peer}
    {direction : Direction} {now : SlotNumber} {handle : UInt32} :
    (merged cell added peer direction now handle (some l)).handle = l.handle := by
  show (if _ = _ then l else _).handle = l.handle
  split <;> rfl

/-- A use of a cell with a permanent link leaves the link there. -/
theorem retained_merged {cell : Cell} {added : Link.Options} {peer : Option Link.Peer}
    {direction : Direction} {now : SlotNumber} {handle : UInt32} (hl : l.lease = none)
    (hg : g ∈ p.plan.unicastFrames) :
    p.Retained g l (merged cell added peer direction now handle (some l)) := by
  refine ⟨handle_merged, ?_, ?_, absurd hg⟩
  · rw [lease_merged, stamped, hl]
    rfl
  · rw [options_merged, contains_iff]
    simp only [Option.elim_some, Link.Options.union, Bool.or_eq_true]
    exact ⟨.inl, .inl, .inl⟩

/-- What happens at a place leaves a permanent link there, which in the beacon slotframe is in the
own timeslot. -/
theorem Touch.retained (h : p.Touch slot? g t o o')
    (hown : g = CellPlan.beaconFrame → p.plan.beaconSlot? p.index = some t)
    (ho : ∃ l', o = some l' ∧ p.Retained g l l') : ∃ l', o' = some l' ∧ p.Retained g l l' := by
  obtain ⟨l', rfl, hl'⟩ := ho
  cases h with
  | judged hnow hframe => exact ⟨l', leave_of_unleased hl'.lease_eq, hl'⟩
  | @renewed now _ hnow hframe =>
    refine ⟨l'.renewed now, rfl, hl'.handle_eq, ?_, hl'.contains, absurd hframe⟩
    rw [Link.renewed, hl'.lease_eq]
    rfl
  | used hnow hu hcell hframe htimeslot =>
    have hg : g ∈ p.plan.unicastFrames := by
      rw [hframe]
      exact (CellPlan.cell?_eq_some hcell).1
    exact ⟨_, rfl, hl'.trans (retained_merged hl'.lease_eq hg)⟩
  | muted hframe hslot haway =>
    rw [hown hframe] at hslot
    exact absurd (Option.some.inj hslot) haway
  | heard hframe hslot haway =>
    rw [hown hframe] at hslot
    exact absurd (Option.some.inj hslot) haway

/-- **Permanent links are never lost.**  A layout that succeeds shows the links that it puts, and
after any events, between whatever addresses, in any slots and however they end, each of them is
still at its place: it has its handle, no lease, and all the options that it had.  The link for the
own beacons and the one that all nodes share are as they were. -/
theorem permanent_of_run {maxFrames maxLinks : Nat}
    (h : p.layOut.perform (.empty maxFrames maxLinks) = (s, .ok ())) (d : Directory)
    (es : List Event) (g t : UInt16) :
    s.attributes? g t = shown p.laid g t none ∧
      ∀ l, s.link? g t = some l →
        ∃ l', (p.run d s es).link? g t = some l' ∧ l'.handle = l.handle ∧ l'.lease = none ∧
          l'.options.contains l.options = true ∧
          (g = CellPlan.beaconFrame ∨ g = CellPlan.sharedFrame → l' = l) := by
  have horderly := orderly_layOut h
  refine ⟨(laid_layOut h).attributes?_eq g t, fun l hl => ?_⟩
  have hown : g = CellPlan.beaconFrame → p.plan.beaconSlot? p.index = some t := by
    rintro rfl
    have hbeacons := attributes?_layOut_beaconFrame h t
    rw [Schedule.attributes?, hl, Option.map_some] at hbeacons
    by_contra hnot
    rw [if_neg hnot] at hbeacons
    cases hbeacons
  have hstart : ∃ l', s.link? g t = some l' ∧ p.Retained g l l' :=
    ⟨l, hl, retained_self ((pristine_layOut h).1.lease_eq hl)⟩
  obtain ⟨l', hl', hretained⟩ :=
    run_preserves (d := d) horderly.wellFormed (fun _ _ _ htouch => htouch.retained hown) hstart es
  refine ⟨l', hl', hretained.handle_eq, hretained.lease_eq, hretained.contains, fun hg => ?_⟩
  apply hretained.eq_of_not_mem
  unfold CellPlan.unicastFrames
  rcases hg with rfl | rfl <;> split <;> decide

/-! A node that listens in its own cell sends to a neighbour whose cell is the same and follows the
time of one whose beacons fall in its own slot. -/

/-- The node, which shares its cell and the slot of its beacons with every fifth index. -/
def overlaid : Planner :=
  ⟨{ CellPlan.standard with ownership := .receiver, beaconPeriod := 5, unicastPeriod := 5 }, 3, 8⟩

/-- What happens to it. -/
def overlaidEvents : List Event :=
  [.sent ⟨.ofLastByte 3, .ofLastByte 8, false⟩ .delivered (.ofNat 1),
    .follow none (some (.ofLastByte 8)), .follow (some (.ofLastByte 8)) none,
    .join (.ofNat 3), .expire (.ofNat 100)]

/-- Its schedule after the layout. -/
def overlaidStart : Schedule := (overlaid.layOut.perform (.empty 4 8)).1

/-- The node's own cell also takes what it sends, and keeps listening after the lease ran out. -/
theorem permanent_of_run_overlaid :
    overlaidStart.attributes? 2 3 = some ⟨.rxOnly, .normal, .unbound, 2⟩ ∧
      ∃ l', (overlaid.run ⟨[], none⟩ overlaidStart overlaidEvents).link? 2 3 = some l' ∧
        l'.lease = none ∧ l'.options.contains .rxOnly = true ∧ l'.options.tx = true := by
  have hlayOut : (overlaid.layOut.perform (.empty 4 8)).2 = .ok () := by decide +kernel
  obtain ⟨hshown, hkept⟩ :=
    permanent_of_run (s := overlaidStart) (Prod.ext rfl hlayOut) ⟨[], none⟩ overlaidEvents 2 3
  have hattributes : overlaidStart.attributes? 2 3 = some ⟨.rxOnly, .normal, .unbound, 2⟩ := by
    rw [hshown]
    decide +kernel
  obtain ⟨l, hl, hattributes'⟩ := Option.map_eq_some_iff.1 hattributes
  obtain ⟨l', hl', -, hlease, hcontains, -⟩ := hkept l hl
  have hoptions : l.options = .rxOnly := congrArg (·.options) hattributes'
  rw [hoptions] at hcontains
  have htx : ((overlaid.run ⟨[], none⟩ overlaidStart overlaidEvents).link? 2 3).map
      (·.options.tx) = some true := by decide +kernel
  rw [hl'] at htx
  exact ⟨hattributes, l', hl', hlease, hcontains, Option.some.inj htx⟩

end Planner

end SlottedMesh
