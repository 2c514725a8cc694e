import SlottedMesh.Proofs.Routing.Feedback
import SlottedMesh.Proofs.Routing.Standing
import SlottedMesh.Proofs.Station.Run

/-!
# The routing of a station

Neighbours advertise, transmissions end, the station joins or becomes the root: each of these events
edits the table of neighbours, the place in the graph or what is advertised, and then the rest is
brought up to date.

* `coherent_step`: so rank, parent and what is advertised agree with the table after each event if
  they did before, and only becoming the root makes the station the root.
* `routing_coherent` is the main statement, about all runs of a station that came up, where no
  neighbour advertises rank zero and the rank of the root is finite.
* `isRoot_iff_mem`: in these runs a station is the root if and only if it became so.
* `isRoot_of_heard` is a run in which a neighbour advertises rank zero: the station counts as the
  root, though it never became so.
-/

namespace SlottedMesh

namespace Objective

/-- The objective has the increase that is set. -/
@[simp] theorem rankIncrease_toObjective (r : RoutingSettings) :
    r.toObjective.rankIncrease = r.rankIncrease := by
  unfold RoutingSettings.toObjective
  split <;> rfl

end Objective

namespace Station

/-- The rank that a neighbour advertises in an event. -/
def Event.rank? : Event → Option UInt16
  | .heard _ rank _ => some rank
  | _ => none

variable {s : Station} {e : Event} {st : Standing} {t : NeighborTable}

/-! ## The table of neighbours -/

/-- What a neighbour advertises is noted in its entry, or makes one. -/
theorem distinct_noteAdvertised (h : t.Distinct) (o : Objective) (a : Address)
    (rank metric : UInt16) : (noteAdvertised o t a rank metric).Distinct := by
  unfold noteAdvertised
  split
  · exact h.modify fun _ => rfl
  · rename_i hnone
    exact h.insert_of_none hnone

/-- What is noted of a rank that is not zero keeps the ranks. -/
theorem ranked_noteAdvertised (h : t.Ranked) (o : Objective) (a : Address) {rank : UInt16}
    (hrank : rank ≠ 0) (metric : UInt16) : (noteAdvertised o t a rank metric).Ranked := by
  unfold noteAdvertised
  split
  · exact NeighborTable.forall_mem_modify h fun _ _ => hrank
  · rename_i hnone
    unfold NeighborTable.Ranked
    rw [NeighborTable.insert_of_none hnone]
    simp only [List.mem_append, List.mem_singleton]
    rintro n (hn | rfl)
    · exact h n hn
    · exact hrank

/-- Feedback keeps the addresses apart, -/
theorem distinct_modify_learn (h : t.Distinct) (o : Objective) (a : Address) (outcome : Outcome)
    (attempts : UInt16) : (t.modify a (o.learn outcome attempts)).Distinct :=
  h.modify (o.address_learn outcome attempts)

/-- and leaves the ranks. -/
theorem ranked_modify_learn (h : t.Ranked) (o : Objective) (a : Address) (outcome : Outcome)
    (attempts : UInt16) : (t.modify a (o.learn outcome attempts)).Ranked := by
  refine NeighborTable.forall_mem_modify h fun n hn => ?_
  rwa [Objective.rank_learn]

/-! ## One event -/

/-- A slot that begins leaves the router, -/
theorem router_tick (s : Station) (now : SlotNumber) : (s.tick now).router = s.router := by
  rw [tick_eq]
  split <;> rfl

/-- and the neighbours. -/
theorem neighbors_tick (s : Station) (now : SlotNumber) : (s.tick now).neighbors = s.neighbors := by
  rw [tick_eq]
  split <;> rfl

/-- A choice changes neither the objective nor what is to be advertised. -/
theorem settled_reselect (s : Station) :
    s.reselect.router.objective = s.router.objective ∧
      s.reselect.router.container.kind = s.router.container.kind := by
  obtain ⟨rank, parent, heq⟩ := s.router.reselect_fst s.neighbors
  unfold reselect refresh
  rw [Router.refresh_fst, heq]
  exact ⟨rfl, Container.kind_refresh _ _ _ _⟩

/-- Events change neither the objective nor what is to be advertised. -/
theorem settled_step (s : Station) (e : Event) :
    (s.step e).router.objective = s.router.objective ∧
      (s.step e).router.container.kind = s.router.container.kind := by
  cases e with
  | tick now =>
    show (s.tick now).router.objective = _ ∧ (s.tick now).router.container.kind = _
    rw [router_tick]
    exact ⟨rfl, rfl⟩
  | join now => exact settled_reselect _
  | becomeRoot => exact ⟨rfl, Container.kind_refresh _ _ _ _⟩
  | heard a rank metric => exact settled_reselect _
  | transmitted receiver outcome attempts isControl => exact settled_reselect _
  | received packet => exact ⟨rfl, rfl⟩
  | followTimeSource a => exact ⟨rfl, rfl⟩

/-- A place in the graph stays what it is when the node joins. -/
theorem holds_join {r : Router} (h : st.Holds r.objective t r.dag) :
    st.Holds r.join.objective t r.join.dag := by
  cases st with
  | root => exact ⟨h.1, h.2.1, rfl, h.2.2.2⟩
  | detached => exact h
  | below n => exact h

/-- After an event, rank, parent and what is advertised agree with the table if they did before; and
the station is the root if it was, or becomes so. -/
theorem coherent_step (h : s.router.Coherent s.neighbors st)
    (ho : s.router.objective.rankIncrease ≠ Rank.infinite)
    (he : e.rank? ≠ some 0) :
    ∃ st', (s.step e).router.Coherent (s.step e).neighbors st' ∧
      (st' = .root ↔ st = .root ∨ e = .becomeRoot) := by
  have hsame (hne : e ≠ .becomeRoot) : st = .root ↔ st = .root ∨ e = .becomeRoot := by
    rw [or_iff_left hne]
  cases e with
  | tick now =>
    refine ⟨st, ?_, hsame nofun⟩
    show (s.tick now).router.Coherent (s.tick now).neighbors st
    rw [router_tick, neighbors_tick]
    exact h
  | join now =>
    have hquiet : s.router.join.Quiet := by
      rintro (hkind | hjoined)
      · exact h.quiet (.inl hkind)
      · cases hjoined
    obtain ⟨st', hcoherent, hroot⟩ :=
      Router.coherent_relearn h.ranked (holds_join h.holds) ho hquiet h.distinct h.ranked
    exact ⟨st', hcoherent, hroot.trans (hsame nofun)⟩
  | becomeRoot =>
    refine ⟨.root, ?_, iff_of_true rfl (.inr rfl)⟩
    exact Router.coherent_becomeRoot h.distinct h.ranked ho h.quiet
  | heard a rank metric =>
    have hrank : rank ≠ 0 := mt (congrArg some) he
    obtain ⟨st', hcoherent, hroot⟩ :=
      Router.coherent_relearn h.ranked h.holds ho h.quiet
        (distinct_noteAdvertised h.distinct s.router.objective a rank metric)
        (ranked_noteAdvertised h.ranked s.router.objective a hrank metric)
    exact ⟨st', hcoherent, hroot.trans (hsame nofun)⟩
  | transmitted receiver outcome attempts isControl =>
    obtain ⟨st', hcoherent, hroot⟩ :=
      Router.coherent_relearn h.ranked h.holds ho h.quiet
        (distinct_modify_learn h.distinct s.router.objective receiver outcome attempts)
        (ranked_modify_learn h.ranked s.router.objective receiver outcome attempts)
    exact ⟨st', hcoherent, hroot.trans (hsame nofun)⟩
  | received packet => exact ⟨st, h, hsame nofun⟩
  | followTimeSource a => exact ⟨st, h, hsame nofun⟩

/-! ## Runs -/

/-- A run leaves the objective and the kind of the container. -/
theorem settled_run (s : Station) (es : List Event) :
    (s.run es).router.objective = s.router.objective ∧
      (s.run es).router.container.kind = s.router.container.kind := by
  induction es generalizing s with
  | nil => exact ⟨rfl, rfl⟩
  | cons e es ih =>
    obtain ⟨hobjective, hkind⟩ := ih (s.step e)
    exact ⟨hobjective.trans (s.settled_step e).1, hkind.trans (s.settled_step e).2⟩

/-- So it is after a run.  The induction is on the run, for any standing where the run begins. -/
theorem coherent_run (h : s.router.Coherent s.neighbors st)
    (ho : s.router.objective.rankIncrease ≠ Rank.infinite) {es : List Event}
    (hes : ∀ e ∈ es, e.rank? ≠ some 0) :
    ∃ st', (s.run es).router.Coherent (s.run es).neighbors st' ∧
      (st' = .root ↔ st = .root ∨ .becomeRoot ∈ es) := by
  induction es generalizing s st with
  | nil => exact ⟨st, h, by simp⟩
  | cons e es ih =>
    obtain ⟨he, hes⟩ := List.forall_mem_cons.1 hes
    obtain ⟨st₁, hstep, hroot₁⟩ := coherent_step h ho he
    have ho₁ : (s.step e).router.objective.rankIncrease ≠ Rank.infinite := by
      rwa [(s.settled_step e).1]
    obtain ⟨st₂, hrun, hroot₂⟩ := ih hstep ho₁ hes
    refine ⟨st₂, hrun, ?_⟩
    rw [hroot₂, hroot₁, List.mem_cons, or_assoc, eq_comm (a := e)]

/-- The rank of the root is the one in the settings. -/
theorem rankIncrease_run {settings : Settings} {driver : Gate.Driver}
    (h : bringUp settings driver = .ok s) (es : List Event) :
    (s.run es).router.objective.rankIncrease = settings.routing.rankIncrease := by
  rw [(settled_run s es).1, (cameUp_of_bringUp h).router_eq]
  exact Objective.rankIncrease_toObjective _

/-- Where a station stands after any events since it came up. -/
theorem coherent_of_bringUp {settings : Settings} {driver : Gate.Driver}
    (hup : bringUp settings driver = .ok s)
    (hfinite : settings.routing.rankIncrease ≠ Rank.infinite) {es : List Event}
    (hes : ∀ e ∈ es, e.rank? ≠ some 0) :
    ∃ st, (s.run es).router.Coherent (s.run es).neighbors st ∧
      (st = .root ↔ .becomeRoot ∈ es) := by
  have hfresh : s.router.Coherent s.neighbors .detached := by
    rw [(cameUp_of_bringUp hup).router_eq, (cameUp_of_bringUp hup).neighbors_eq]
    exact Router.coherent_fresh _ _
  have ho : s.router.objective.rankIncrease ≠ Rank.infinite :=
    (rankIncrease_run hup []).trans_ne hfinite
  obtain ⟨st, hcoherent, hroot⟩ := coherent_run hfresh ho hes
  refine ⟨st, hcoherent, hroot.trans ?_⟩
  rw [or_iff_right nofun]

/-- **Routing states agree.**  Take any run of a station that came up with a finite rank for the
root, under either objective, in which no neighbour advertises rank zero.  Then each neighbour has
one entry; rank, parent and what is advertised are those of the root if the station became the root,
and else those of a node without a way to the root, or of a node below a neighbour as its entry now
is. -/
theorem routing_coherent {settings : Settings} {driver : Gate.Driver} {s₀ : Station}
    (hup : bringUp settings driver = .ok s₀)
    (hfinite : settings.routing.rankIncrease ≠ Rank.infinite) {es : List Event}
    (hes : ∀ e ∈ es, e.rank? ≠ some 0) :
    (s₀.run es).router.objective = settings.routing.toObjective ∧
      (s₀.run es).router.container.kind = settings.routing.advertised ∧
      ∃ st, (s₀.run es).router.Coherent (s₀.run es).neighbors st ∧
        (st = .root ↔ .becomeRoot ∈ es) := by
  obtain ⟨hobjective, hkind⟩ := settled_run s₀ es
  rw [(cameUp_of_bringUp hup).router_eq] at hobjective hkind
  exact ⟨hobjective, hkind, coherent_of_bringUp hup hfinite hes⟩

/-! A node hears of two neighbours, of which the first is nearer to the root, and then sends to it
in vain; the second becomes its parent. -/

/-- The node counts losses and advertises how it is powered. -/
def batterySettings : Settings :=
  { Settings.standard with routing := ⟨.deliveryRatio, 256, 64, 0, .energy⟩ }

/-- What happens to it. -/
def newParent : List Event :=
  [.join .zero, .heard (.ofLastByte 2) 256 0, .heard (.ofLastByte 3) 300 128,
    .transmitted (.ofLastByte 2) .unacknowledged 40 false]

/-- The node has the new parent, and its router is coherent. -/
theorem routing_coherent_newParent :
    ∃ s₀, bringUp batterySettings .quiet = .ok s₀ ∧
      (s₀.run newParent).router.dag.parent = some (.ofLastByte 3) ∧
      ∃ st ≠ Standing.root, (s₀.run newParent).router.Coherent (s₀.run newParent).neighbors st := by
  obtain ⟨s₀, hup, hparent⟩ :
      ∃ s₀, bringUp batterySettings .quiet = .ok s₀ ∧
        (s₀.run newParent).router.dag.parent = some (.ofLastByte 3) :=
    ⟨_, rfl, by decide +kernel⟩
  have hranks : ∀ e ∈ newParent, e.rank? ≠ some 0 := by decide
  obtain ⟨-, -, st, hcoherent, hroot⟩ := routing_coherent hup (by decide) hranks
  refine ⟨s₀, hup, hparent, st, mt hroot.1 ?_, hcoherent⟩
  simp [newParent]

/-! ## Who is the root -/

/-- **Who is the root.**  In runs as above, a station counts as the root if and only if it became
the root.  One that did not become so has a parent as soon as a neighbour has a way to the root, and
never advertises that it is powered from the mains. -/
theorem isRoot_iff_mem {settings : Settings} {driver : Gate.Driver} {s₀ : Station}
    (hup : bringUp settings driver = .ok s₀)
    (hfinite : settings.routing.rankIncrease ≠ Rank.infinite) {es : List Event}
    (hes : ∀ e ∈ es, e.rank? ≠ some 0) :
    ((s₀.run es).router.isRoot = true ↔ .becomeRoot ∈ es) ∧
      (.becomeRoot ∉ es →
        ((s₀.run es).neighbors.finite ≠ [] →
          ∃ n ∈ (s₀.run es).neighbors.finite, (s₀.run es).router.dag.parent = some n.address) ∧
        ∀ cost, (s₀.run es).router.container.object ≠
          .energy Container.Supply.mains.flags cost) := by
  obtain ⟨st, h, hroot⟩ := coherent_of_bringUp hup hfinite hes
  have ho : (s₀.run es).router.objective.rankIncrease ≠ Rank.infinite :=
    (rankIncrease_run hup es).trans_ne hfinite
  refine ⟨(h.holds.isRoot_iff h.ranked ho).trans hroot, fun hnot => ?_⟩
  have hst : st ≠ .root := mt hroot.1 hnot
  exact ⟨h.exists_parent hst, h.object_ne_mains hst⟩

/-- The node is root once it became so, and not before. -/
theorem isRoot_iff_mem_newParent :
    ∃ s₀, bringUp batterySettings .quiet = .ok s₀ ∧ (s₀.run newParent).router.isRoot = false ∧
      (s₀.run (newParent ++ [.becomeRoot])).router.isRoot = true := by
  obtain ⟨s₀, hup⟩ : ∃ s₀, bringUp batterySettings .quiet = .ok s₀ := ⟨_, rfl⟩
  have hranks : ∀ e ∈ newParent ++ [.becomeRoot], e.rank? ≠ some 0 := by decide
  refine ⟨s₀, hup, ?_, ?_⟩
  · have hbefore := isRoot_iff_mem hup (by decide) (List.forall_mem_append.1 hranks).1
    rw [Bool.eq_false_iff, ne_eq, hbefore.1]
    simp [newParent]
  · have hafter := isRoot_iff_mem hup (by decide) hranks
    rw [hafter.1]
    simp

/-- A station of standard settings counts as the root when a neighbour advertises rank zero: it is
not so that a station is the root only if it became so. -/
theorem isRoot_of_heard :
    ¬∀ (settings : Settings) (driver : Gate.Driver) (s₀ : Station) (es : List Event),
      bringUp settings driver = .ok s₀ → .becomeRoot ∉ es → (s₀.run es).router.isRoot = false := by
  intro h
  obtain ⟨s₀, hup, hroot⟩ :
      ∃ s₀, bringUp .standard .quiet = .ok s₀ ∧
        (s₀.run [.join .zero, .heard (.ofLastByte 2) 0 0]).router.isRoot = true :=
    ⟨_, rfl, by decide +kernel⟩
  rw [h _ _ _ _ hup (by simp)] at hroot
  cases hroot

end Station

end SlottedMesh
