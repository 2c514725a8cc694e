import SlottedMesh.Proofs.Routing.Choice

/-!
# Where a node stands in its graph

A router keeps its rank, its parent and what it advertises apart from one another and from the table
of neighbours.  They agree if all of them are those of one `Standing`: the root, a node without a
way to the root, or a node below a neighbour that is in the table as it now is.

* `Coherent` says that they agree, and of the table that each neighbour has one entry and that none
  advertises rank zero.  Without the latter the root could not be told by its rank
  (`Standing.Holds.isRoot_iff`).
* `coherent_refresh`: what a router writes of its standing is what it should.
* `coherent_relearn`: a router agrees with its table after it chose anew, whatever became of the
  table, and it is the root then if it was before.
-/

namespace SlottedMesh

/-- No neighbour advertises the rank zero. -/
def NeighborTable.Ranked (t : NeighborTable) : Prop := ∀ n ∈ t.entries, n.rank ≠ 0

/-- Where a node stands in its graph. -/
inductive Standing where
  /-- It is the root. -/
  | root
  /-- It has no way to the root. -/
  | detached
  /-- It sends to this neighbour. -/
  | below (parent : Neighbor)
deriving DecidableEq

namespace Standing

open Container

/-- How a node is powered that stands there. -/
def supply : Standing → Supply
  | root => .mains
  | detached | below _ => .battery

/-- The transmissions that a packet costs from there to the root. -/
def cost (o : Objective) : Standing → UInt16
  | root => 0
  | detached => Objective.noPathCost
  | below parent => o.pathCost (some parent)

/-- What a node advertises that stands there. -/
def object (o : Objective) (kind : Kind) (st : Standing) : Object :=
  match kind with
  | .none => .empty
  | .transmissions => .transmissions (st.cost o)
  | .energy => .energy st.supply.flags (st.cost o)

/-- A node with this place in the graph and these neighbours stands there. -/
def Holds (o : Objective) (t : NeighborTable) (dag : Dag) : Standing → Prop
  | root => dag.rank = o.rankIncrease ∧ dag.grounded = true ∧ dag.joined = true ∧ dag.parent = none
  | detached => dag.rank = Rank.infinite ∧ dag.parent = none ∧ t.finite = []
  | below n => n ∈ t.finite ∧ dag.parent = some n.address ∧ dag.rank = o.rankThrough (some n)

variable {r : Router} {t : NeighborTable} {st : Standing}

/-- Only the root advertises that it is powered from the mains. -/
theorem object_ne_mains (h : st ≠ root) (o : Objective) (kind : Kind) (cost : UInt16) :
    st.object o kind ≠ .energy Supply.mains.flags cost := by
  cases kind with
  | none => nofun
  | transmissions => nofun
  | energy =>
    have hsupply : st.supply = .battery := by
      cases st with
      | root => exact absurd rfl h
      | detached => rfl
      | below n => rfl
    intro heq
    injection heq with hflags
    rw [hsupply] at hflags
    exact absurd hflags (by decide)

/-- Only the root has the rank of the root. -/
theorem Holds.isRoot_iff (h : st.Holds r.objective t r.dag) (ht : t.Ranked)
    (ho : r.objective.rankIncrease ≠ Rank.infinite) : r.isRoot = true ↔ st = root := by
  unfold Router.isRoot Router.rootRank
  rw [decide_eq_true_eq]
  cases st with
  | root => exact iff_of_true h.1 rfl
  | detached =>
    refine iff_of_false ?_ nofun
    rw [h.1]
    exact ho.symm
  | below n =>
    obtain ⟨hn, -, hrank⟩ := h
    refine iff_of_false ?_ nofun
    rw [hrank]
    apply Objective.rankThrough_ne_rankIncrease ho
    rintro m ⟨⟩
    exact ht n (NeighborTable.mem_finite_iff.1 hn).1

/-- A router writes the metric of its standing, with the parent's entry as it now is. -/
theorem Holds.metric_eq (h : st.Holds r.objective t r.dag) (ht : t.Distinct)
    (hroot : r.isRoot = true ↔ st = root) (kind : Kind) :
    metric kind r.isRoot (r.objective.pathCost (r.parentEntry? t)) =
      st.object r.objective kind := by
  have hbelow (hst : st ≠ root) (cost : UInt16) :
      metric kind r.isRoot cost = match kind with
        | .none => .empty
        | .transmissions => .transmissions cost
        | .energy => .energy Supply.battery.flags cost := by
    have hfalse : r.isRoot = false := Bool.eq_false_iff.2 (mt hroot.1 hst)
    rw [hfalse]
    rfl
  cases st with
  | root =>
    rw [hroot.2 rfl]
    cases kind <;> rfl
  | detached =>
    have hentry : r.parentEntry? t = none := by
      unfold Router.parentEntry?
      rw [h.2.1, Option.bind_none]
    rw [hbelow nofun, hentry]
    rfl
  | below n =>
    obtain ⟨hn, hparent, -⟩ := h
    have hentry : r.parentEntry? t = some n := by
      unfold Router.parentEntry?
      rw [hparent, Option.bind_some]
      exact ht.get?_of_mem (NeighborTable.mem_finite_iff.1 hn).1
    rw [hbelow nofun, hentry]
    rfl

end Standing

/-! ## What a refresh writes -/

namespace Container

variable (c : Container) (o : Objective) (dag : Dag) (parent : Option Neighbor)

/-- Writing the header leaves the kind, -/
@[simp] theorem kind_stamped : c.stamped.kind = c.kind := by
  unfold stamped
  split <;> rfl

/-- and the object. -/
@[simp] theorem object_stamped : c.stamped.object = c.object := by
  unfold stamped
  split <;> rfl

/-- A refresh leaves the kind. -/
@[simp] theorem kind_refresh : (c.refresh o dag parent).1.kind = c.kind := by
  unfold refresh
  split
  · exact c.kind_stamped
  · split <;> exact c.kind_stamped

/-- A refresh writes the object of a router that advertises and takes part in a graph, and leaves
that of others. -/
theorem object_refresh :
    (c.refresh o dag parent).1.object =
      if c.kind ≠ .none ∧ dag.joined = true then
        metric c.kind (dag.rank = o.rankIncrease) (o.pathCost parent)
      else c.object := by
  unfold refresh
  split
  · rename_i hkind
    rw [if_neg fun h => h.1 hkind]
    exact c.object_stamped
  · rename_i hkind
    split
    · rename_i hjoined
      rw [if_pos ⟨hkind, hjoined⟩]
    · rename_i hjoined
      rw [if_neg fun h => hjoined h.2]
      exact c.object_stamped

end Container

namespace Router

open Container

variable {r : Router} {t t' : NeighborTable} {st : Standing}

/-- Rank, parent and what is advertised are those of a node that stands there. -/
structure Coherent (r : Router) (t : NeighborTable) (st : Standing) : Prop where
  /-- Each neighbour has one entry. -/
  distinct : t.Distinct
  /-- None advertises the rank zero. -/
  ranked : t.Ranked
  /-- The place in the graph is that of a node that stands there. -/
  holds : st.Holds r.objective t r.dag
  /-- So is what the router advertises, if it takes part in the graph. -/
  object_eq : r.container.object =
    if r.dag.joined then st.object r.objective r.container.kind else .empty

/-- There is nothing in the container of a router that advertises nothing or takes part in no
graph. -/
def Quiet (r : Router) : Prop :=
  r.container.kind = .none ∨ r.dag.joined = false → r.container.object = .empty

/-- The container of a coherent router is empty where there is nothing to advertise. -/
theorem Coherent.quiet (h : r.Coherent t st) : r.Quiet := by
  rintro (hkind | hjoined)
  · rw [h.object_eq, hkind]
    split <;> rfl
  · rw [h.object_eq, hjoined]
    rfl

/-- A node other than the root sends to a neighbour if one has a way to the root. -/
theorem Coherent.exists_parent (h : r.Coherent t st) (hst : st ≠ .root) (hsome : t.finite ≠ []) :
    ∃ n ∈ t.finite, r.dag.parent = some n.address := by
  have hholds := h.holds
  cases st with
  | root => exact absurd rfl hst
  | detached => exact absurd hholds.2.2 hsome
  | below n => exact ⟨n, hholds.1, hholds.2.1⟩

/-- It does not advertise that it is powered from the mains. -/
theorem Coherent.object_ne_mains (h : r.Coherent t st) (hst : st ≠ .root) (cost : UInt16) :
    r.container.object ≠ .energy Supply.mains.flags cost := by
  rw [h.object_eq]
  split
  · exact Standing.object_ne_mains hst _ _ _
  · nofun

/-- A refresh writes the container and nothing else. -/
@[simp] theorem refresh_fst (r : Router) (t : NeighborTable) :
    (r.refresh t).1 =
      { r with container := (r.container.refresh r.objective r.dag (r.parentEntry? t)).1 } :=
  rfl

/-- What a router writes of its standing is what it should. -/
theorem coherent_refresh (hd : t.Distinct) (ht : t.Ranked) (h : st.Holds r.objective t r.dag)
    (ho : r.objective.rankIncrease ≠ Rank.infinite) (hquiet : r.Quiet) :
    (r.refresh t).1.Coherent t st := by
  refine ⟨hd, ht, h, ?_⟩
  rw [refresh_fst, object_refresh, kind_refresh]
  split
  · rename_i hwrites
    rw [if_pos hwrites.2]
    exact h.metric_eq hd (h.isRoot_iff ht ho) r.container.kind
  · rename_i hkeeps
    by_cases hjoined : r.dag.joined = true
    · have hkind : r.container.kind = .none := by
        by_contra hkind
        exact hkeeps ⟨hkind, hjoined⟩
      rw [if_pos hjoined, hquiet (.inl hkind), hkind]
      rfl
    · rw [if_neg hjoined]
      exact hquiet (.inr (Bool.eq_false_iff.2 hjoined))

/-! ## A new choice -/

/-- A choice changes rank and parent alone. -/
theorem reselect_fst (r : Router) (t : NeighborTable) :
    ∃ rank parent, (r.reselect t).1 = { r with dag := { r.dag with rank, parent } } := by
  rcases r.reselect_cases t with ⟨-, heq⟩ | ⟨-, heq⟩ | ⟨p, -, heq⟩
  · exact ⟨r.dag.rank, r.dag.parent, by rw [heq]⟩
  · exact ⟨_, _, by rw [heq]⟩
  · exact ⟨_, _, by rw [heq]⟩

/-- A node that is not the root finds its place among its neighbours. -/
theorem holds_reselect (h : ¬r.isRoot = true) (t : NeighborTable) :
    ∃ st ≠ Standing.root, st.Holds r.objective t (r.reselect t).1.dag := by
  rcases r.reselect_cases t with ⟨hroot, -⟩ | ⟨hnone, heq⟩ | ⟨n, hn, heq⟩
  · exact absurd hroot h
  · exact ⟨.detached, nofun, by rw [heq]; exact ⟨rfl, rfl, hnone⟩⟩
  · exact ⟨.below n, nofun, by rw [heq]; exact ⟨hn, rfl, rfl⟩⟩

/-- A router that chooses anew agrees with its table, whatever became of the table since.  It is the
root if it was before. -/
theorem coherent_relearn (ht : t.Ranked) (h : st.Holds r.objective t r.dag)
    (ho : r.objective.rankIncrease ≠ Rank.infinite) (hquiet : r.Quiet) (hd' : t'.Distinct)
    (ht' : t'.Ranked) :
    ∃ st', ((r.reselect t').1.refresh t').1.Coherent t' st' ∧
      (st' = .root ↔ st = .root) := by
  have hroot := h.isRoot_iff ht ho
  by_cases hst : st = .root
  · -- the root's place does not depend on the table
    subst hst
    rw [reselect_of_isRoot (hroot.2 rfl)]
    exact ⟨.root, coherent_refresh hd' ht' h ho hquiet, Iff.rfl⟩
  · obtain ⟨st', hst', hholds⟩ := holds_reselect (mt hroot.1 hst) t'
    refine ⟨st', ?_, iff_of_false hst' hst⟩
    obtain ⟨rank, parent, heq⟩ := reselect_fst r t'
    rw [heq] at hholds ⊢
    exact coherent_refresh hd' ht' hholds ho hquiet

/-- A router that becomes the root agrees with any table. -/
theorem coherent_becomeRoot (hd : t.Distinct) (ht : t.Ranked)
    (ho : r.objective.rankIncrease ≠ Rank.infinite) (hquiet : r.Quiet) :
    (r.becomeRoot.refresh t).1.Coherent t .root := by
  have hquiet : r.becomeRoot.Quiet := by
    rintro (hkind | hjoined)
    · exact hquiet (.inl hkind)
    · cases hjoined
  exact coherent_refresh hd ht ⟨rfl, rfl, rfl, rfl⟩ ho hquiet

/-- A router without a place agrees with the empty table. -/
theorem coherent_fresh (o : Objective) (kind : Kind) :
    (fresh o kind).Coherent .empty .detached :=
  ⟨NeighborTable.distinct_empty, nofun, ⟨rfl, rfl, rfl⟩, rfl⟩

end Router

end SlottedMesh
