import SlottedMesh.Proofs.Cells.InitialCells
import SlottedMesh.Proofs.Settings.Sound

/-!
# Fixed links

Where senders own the cells, the unicast slotframe holds the fixed links that name the node and
nothing else after the first layout.  They are put one after another, each in the place of what is
there already.  So where two of them share a timeslot, the later one counts alone: a node that is to
transmit in a cell does not, if a later link of that timeslot only has it listen.

* `attributes?_layOut_unicastFrame`: what is set in the unicast slotframe is that of the last link
  of each timeslot (`lastFixed?`).
* `fixed_links_of_layOut` is the main statement.  `attributes?_of_fixed` is the case in which the
  links of a timeslot agree on what the node does, and `not_forall_fixed_all` one where they do not.
-/

namespace SlottedMesh

namespace Planner

open Schedule

variable {p : Planner} {s : Schedule} {l last : FixedLink} {t : UInt16} {maxFrames maxLinks : Nat}

/-! ## The links that name a node -/

/-- The fixed link names the node. -/
def Names (p : Planner) (l : FixedLink) : Prop := l.txIndex = p.index ∨ l.rxIndex = p.index

instance : DecidablePred p.Names := fun l =>
  inferInstanceAs (Decidable (l.txIndex = p.index ∨ l.rxIndex = p.index))

/-- What is set for a fixed link that names the node. -/
def fixedAttributes (p : Planner) (l : FixedLink) : Link.Attributes :=
  ⟨if l.txIndex = p.index then .all else .rxOnly, .normal, .broadcast, CellPlan.unicastFrame⟩

/-- A layout puts the fixed links that name the node. -/
theorem laidFixed_eq (p : Planner) :
    p.laidFixed = (p.plan.fixedLinks.filter p.Names).map fun l =>
      ⟨CellPlan.unicastFrame, l.timeslot, p.fixedAttributes l⟩ := by
  unfold laidFixed
  induction p.plan.fixedLinks with
  | nil => rfl
  | cons l links ih =>
    rw [List.flatMap_cons, ih, List.filter_cons]
    unfold fixedOptions? Names fixedAttributes
    by_cases htx : l.txIndex = p.index
    · simp [htx]
    · by_cases hrx : l.rxIndex = p.index <;> simp [htx, hrx]

/-- The last of the fixed links that name the node at a timeslot. -/
def lastFixed? (p : Planner) (t : UInt16) : Option FixedLink :=
  p.plan.fixedLinks.reverse.find? fun l => p.Names l ∧ l.timeslot = t

/-- It names the node at the timeslot, and none that comes later does. -/
theorem lastFixed?_eq_some_iff :
    p.lastFixed? t = some l ↔ (p.Names l ∧ l.timeslot = t) ∧ ∃ earlier later,
      p.plan.fixedLinks = earlier ++ l :: later ∧
        ∀ l' ∈ later, p.Names l' → l'.timeslot ≠ t := by
  unfold lastFixed?
  rw [List.find?_eq_some_iff_append, decide_eq_true_eq]
  refine and_congr_right fun _ => ?_
  constructor
  · rintro ⟨xs, ys, hlinks, hnone⟩
    refine ⟨ys.reverse, xs.reverse, ?_, fun l' hl' hnames htimeslot => ?_⟩
    · rw [← List.reverse_reverse p.plan.fixedLinks, hlinks]
      simp
    · simpa [hnames, htimeslot] using hnone l' (List.mem_reverse.1 hl')
  · rintro ⟨earlier, later, hlinks, hnone⟩
    refine ⟨later.reverse, earlier.reverse, ?_, fun l' hl' => ?_⟩
    · rw [hlinks]
      simp
    · simpa [imp_iff_not_or] using hnone l' (List.mem_reverse.1 hl')

/-- There is one if some fixed link names the node at the timeslot. -/
theorem isSome_lastFixed? :
    (p.lastFixed? t).isSome ↔ ∃ l ∈ p.plan.fixedLinks, p.Names l ∧ l.timeslot = t := by
  simp [lastFixed?]

/-- At each timeslot stands what comes last of the fixed links there. -/
theorem shown_laidFixed (p : Planner) (t : UInt16) :
    shown p.laidFixed CellPlan.unicastFrame t none = (p.lastFixed? t).map p.fixedAttributes := by
  rw [shown_eq_find?, Option.or_none, laidFixed_eq, ← List.map_reverse, List.find?_map,
    ← List.filter_reverse, List.find?_filter, Option.map_map]
  simp [lastFixed?, Function.comp_def, eq_comm]

/-! ## The unicast slotframe -/

/-- After a layout that succeeds, the last fixed link of each timeslot says what is set there. -/
theorem attributes?_layOut_unicastFrame (hownership : p.plan.ownership = .sender)
    (h : p.layOut.perform (.empty maxFrames maxLinks) = (s, .ok ())) (t : UInt16) :
    s.attributes? CellPlan.unicastFrame t = (p.lastFixed? t).map p.fixedAttributes := by
  have hbeacons : ∀ x ∈ p.laidBeacons, x.frame ≠ CellPlan.unicastFrame := fun x hx => by
    obtain ⟨own, rfl⟩ := eq_of_mem_laidBeacons hx
    show CellPlan.beaconFrame ≠ CellPlan.unicastFrame
    decide
  have hshared : ∀ x ∈ p.laidShared, x.frame ≠ CellPlan.unicastFrame := fun x hx => by
    rw [eq_of_mem_laidShared hx]
    decide
  have hempty : (Schedule.empty maxFrames maxLinks).attributes? CellPlan.unicastFrame t = none :=
    rfl
  have hunicast : p.laidUnicast = p.laidFixed := by
    unfold laidUnicast
    rw [hownership]
  rw [(laid_layOut h).attributes?_eq, hempty, laid, shown_append, shown_append,
    shown_of_forall_ne hbeacons, shown_of_forall_ne hshared, hunicast, shown_laidFixed]

/-- **Fixed links.**  After a layout that succeeds, there is a link without a lease, to all
neighbours, at the timeslot of every fixed link that names the node, and there is no other in the
unicast slotframe.  The node listens there, and what else it does is up to the last fixed link of
that timeslot. -/
theorem fixed_links_of_layOut (hownership : p.plan.ownership = .sender)
    (h : p.layOut.perform (.empty maxFrames maxLinks) = (s, .ok ())) :
    (∀ l ∈ p.plan.fixedLinks, p.Names l →
      ∃ k last, s.link? CellPlan.unicastFrame l.timeslot = some k ∧ k.lease = none ∧
        k.peer = .broadcast ∧ k.options.rx = true ∧ p.lastFixed? l.timeslot = some last ∧
        k.options = if last.txIndex = p.index then .all else .rxOnly) ∧
    ∀ t k, s.link? CellPlan.unicastFrame t = some k →
      ∃ l ∈ p.plan.fixedLinks, p.Names l ∧ l.timeslot = t := by
  have hattributes := attributes?_layOut_unicastFrame hownership h
  constructor
  · intro l hl hnames
    obtain ⟨last, hlast⟩ := Option.isSome_iff_exists.1 (isSome_lastFixed?.2 ⟨l, hl, hnames, rfl⟩)
    have hset := hattributes l.timeslot
    rw [hlast, Option.map_some] at hset
    obtain ⟨k, hk, heq⟩ := Option.map_eq_some_iff.1 hset
    have hoptions : k.options = if last.txIndex = p.index then .all else .rxOnly :=
      congrArg (·.options) heq
    refine ⟨k, last, hk, (pristine_layOut h).1.lease_eq hk, congrArg (·.peer) heq, ?_, hlast,
      hoptions⟩
    rw [hoptions]
    split <;> rfl
  · intro t k hk
    refine isSome_lastFixed?.1 ?_
    have hset := hattributes t
    rw [Schedule.attributes?, hk] at hset
    cases hlast : p.lastFixed? t with
    | none =>
      rw [hlast] at hset
      cases hset
    | some last => rfl

/-- A fixed link counts if those of its timeslot agree on whether the node transmits. -/
theorem attributes?_of_fixed (hownership : p.plan.ownership = .sender)
    (h : p.layOut.perform (.empty maxFrames maxLinks) = (s, .ok ())) (hl : l ∈ p.plan.fixedLinks)
    (hnames : p.Names l)
    (hagree : ∀ l' ∈ p.plan.fixedLinks, p.Names l' → l'.timeslot = l.timeslot →
      (l'.txIndex = p.index ↔ l.txIndex = p.index)) :
    s.attributes? CellPlan.unicastFrame l.timeslot = some (p.fixedAttributes l) := by
  obtain ⟨last, hlast⟩ := Option.isSome_iff_exists.1 (isSome_lastFixed?.2 ⟨l, hl, hnames, rfl⟩)
  obtain ⟨⟨hnames', htimeslot⟩, earlier, later, hlinks, -⟩ := lastFixed?_eq_some_iff.1 hlast
  have hmem : last ∈ p.plan.fixedLinks := by
    rw [hlinks]
    exact List.mem_append_right _ (List.mem_cons_self ..)
  rw [attributes?_layOut_unicastFrame hownership h, hlast, Option.map_some]
  unfold fixedAttributes
  simp only [hagree last hmem hnames' htimeslot]

/-! The third node is to transmit to the second in two timeslots and to listen to the fourth in the
same two.  In one of them this is what comes last, and in the other that. -/

/-- The settings of the third node. -/
def contested : Settings :=
  { Settings.standard with
    nodeId := 3
    plan := { CellPlan.standard with
      fixedLinks := [⟨3, 2, 5⟩, ⟨4, 3, 5⟩, ⟨4, 3, 7⟩, ⟨3, 2, 7⟩] } }

/-- How it follows them. -/
def contestedPlanner : Planner := ⟨contested.plan, 3, 8000⟩

/-- Its schedule after the layout. -/
def contestedStart : Schedule :=
  (contestedPlanner.layOut.perform
    (.empty contested.schedule.maxFrames contested.schedule.maxLinks)).1

/-- The layout succeeds. -/
theorem perform_layOut_contested :
    contestedPlanner.layOut.perform
        (.empty contested.schedule.maxFrames contested.schedule.maxLinks) =
      (contestedStart, .ok ()) := by
  have hok : (contestedPlanner.layOut.perform (.empty contested.schedule.maxFrames
      contested.schedule.maxLinks)).2 = .ok () := by decide +kernel
  unfold contestedStart
  rw [← hok]

/-- In one timeslot the node only listens, and in the other it does all. -/
theorem fixed_links_of_layOut_contested :
    contested.validate = .ok () ∧
      (∃ k, contestedStart.link? 2 5 = some k ∧ k.lease = none ∧ k.options = .rxOnly) ∧
      ∃ k, contestedStart.link? 2 7 = some k ∧ k.lease = none ∧ k.options = .all := by
  obtain ⟨hheld, -⟩ := fixed_links_of_layOut rfl perform_layOut_contested
  obtain ⟨k, last, hk, hlease, -, -, hlast, hoptions⟩ := hheld ⟨3, 2, 5⟩ (by decide) (by decide)
  obtain ⟨k', last', hk', hlease', -, -, hlast', hoptions'⟩ :=
    hheld ⟨4, 3, 7⟩ (by decide) (by decide)
  have hfour : contestedPlanner.lastFixed? 5 = some ⟨4, 3, 5⟩ := by decide
  have hthree : contestedPlanner.lastFixed? 7 = some ⟨3, 2, 7⟩ := by decide
  rw [hfour] at hlast
  rw [hthree] at hlast'
  cases hlast
  cases hlast'
  exact ⟨by decide, ⟨k, hk, hlease, hoptions⟩, k', hk', hlease', hoptions'⟩

/-- It is not so that a node transmits at the timeslot of every fixed link that has it transmit. -/
theorem not_forall_fixed_all :
    ¬∀ (settings : Settings) (p : Planner) (s : Schedule), settings.validate = .ok () →
      p.plan = settings.plan → p.plan.ownership = .sender →
      p.layOut.perform (.empty settings.schedule.maxFrames settings.schedule.maxLinks) =
        (s, .ok ()) →
      ∀ l ∈ p.plan.fixedLinks, l.txIndex = p.index →
        ∃ k, s.link? CellPlan.unicastFrame l.timeslot = some k ∧ k.lease = none ∧
          k.peer = .broadcast ∧ k.options.tx = true ∧ k.options.rx = true ∧
          k.options.shared = true := by
  intro h
  obtain ⟨k, hk, -, -, htx, -⟩ := h contested contestedPlanner contestedStart (by decide) rfl rfl
    perform_layOut_contested ⟨3, 2, 5⟩ (by decide) rfl
  have hoptions : (contestedStart.link? CellPlan.unicastFrame 5).map (·.options.tx) =
      some false := by
    decide +kernel
  rw [hk, Option.map_some, htx] at hoptions
  cases hoptions

end Planner

end SlottedMesh
