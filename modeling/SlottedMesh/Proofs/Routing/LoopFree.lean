import Mathlib.Data.List.Chain
import Mathlib.Logic.Relation
import SlottedMesh.Proofs.Routing.Choice

/-!
# No loops

Each node of a network chooses its parent by itself, from what its neighbours advertise.  As long as
what it knows of its parent is what is true of the parent, the choices of all nodes together lead
towards the root and never round in a circle, whichever objectives the nodes have.

* `Consistent` is what a network has to keep to: each parent was chosen from the table that is
  there, and the table has the parent's rank as it now is.
* `rank_lt`: one hop towards the root lowers the rank.  Ranks are words that stop at infinity, but a
  parent's rank is finite, and so there is room above it.
* `loop_free` is the main statement: no path along the parents comes to an address twice.
-/

namespace SlottedMesh

/-- A node of a network, as far as routing goes. -/
structure RoutingNode where
  /-- The address by which others know the node. -/
  address : Address
  /-- The routing state of the node. -/
  router : Router
  /-- What the node knows of its neighbours. -/
  neighbors : NeighborTable

namespace RoutingNode

/-- The rank that the node has. -/
def rank (n : RoutingNode) : UInt16 := n.router.dag.rank

/-- The node's place in the graph is one that a router with its objective has just found: it chose
`parent` from the neighbours that the node has. -/
def Chose (n : RoutingNode) (parent : Address) : Prop :=
  ∃ r r' : Router, r.reselect n.neighbors = (r', .ok (some parent)) ∧
    r'.objective = n.router.objective ∧ r'.dag = n.router.dag

variable {n m k : RoutingNode} {parent : Address} {nodes : List RoutingNode}

/-- The parent is a neighbour with a way to the root, and the rank is the one over it. -/
theorem Chose.exists_entry (h : n.Chose parent) :
    ∃ e ∈ n.neighbors.finite, e.address = parent ∧
      n.rank = n.router.objective.rankThrough (some e) := by
  obtain ⟨r, r', hreselect, hobjective, hdag⟩ := h
  rcases r.reselect_cases n.neighbors with ⟨-, heq⟩ | ⟨-, heq⟩ | ⟨e, he, heq⟩
  · rw [heq] at hreselect
    cases hreselect
  · rw [heq] at hreselect
    cases hreselect
  · rw [heq] at hreselect
    cases hreselect
    refine ⟨e, he, rfl, ?_⟩
    unfold rank
    rw [← hdag, ← hobjective]

/-! ## Networks -/

/-- In a network, `n` sends to `m`. -/
def Follows (nodes : List RoutingNode) (n m : RoutingNode) : Prop :=
  n ∈ nodes ∧ m ∈ nodes ∧ n.router.dag.parent = some m.address

/-- Nodes whose choices rest on what is true.  Where a table has one entry for each address, there
is one entry that `rank_eq` is about. -/
structure Consistent (nodes : List RoutingNode) : Prop where
  /-- Each hop counts. -/
  one_le_rankIncrease : ∀ n ∈ nodes, 1 ≤ n.router.objective.rankIncrease
  /-- A node with a parent has just chosen it. -/
  chose : ∀ n ∈ nodes, ∀ parent, n.router.dag.parent = some parent → n.Chose parent
  /-- What the node knows of its parent's rank is true. -/
  rank_eq : ∀ n m, Follows nodes n m → ∀ e ∈ n.neighbors.entries, e.address = m.address →
    e.rank = m.rank

/-- One hop along the parents lowers the rank. -/
theorem Consistent.rank_lt (h : Consistent nodes) (hnm : Follows nodes n m) : m.rank < n.rank := by
  obtain ⟨hn, hm, hparent⟩ := hnm
  obtain ⟨e, he, haddress, hrank⟩ := (h.chose n hn _ hparent).exists_entry
  obtain ⟨hentry, hfinite⟩ := NeighborTable.mem_finite_iff.1 he
  have hsame : e.rank = m.rank := h.rank_eq n m ⟨hn, hm, hparent⟩ e hentry haddress
  have hne : m.rank.toNat ≠ Rank.infinite.toNat := by
    intro heq
    have hinfinite : e.rank = Rank.infinite := hsame.trans (UInt16.toNat_inj.1 heq)
    simp [Neighbor.isFinite, hinfinite] at hfinite
  have hroom : m.rank.toNat < UInt16.size := m.rank.toNat_lt
  have hvalue : Rank.infinite.toNat = UInt16.size - 1 := rfl
  have hhop : 1 ≤ n.router.objective.rankIncrease.toNat :=
    UInt16.le_iff_toNat_le.1 (h.one_le_rankIncrease n hn)
  have hfloor := n.router.objective.add_le_rankThrough e
  rw [← hrank, hsame] at hfloor
  rw [UInt16.lt_iff_toNat_lt]
  omega

/-! ## Paths -/

open Relation

/-- Any number of hops lowers the rank. -/
theorem Consistent.rank_lt_of_transGen (h : Consistent nodes)
    (hnm : TransGen (Follows nodes) n m) : m.rank < n.rank := by
  induction hnm with
  | single hstep => exact h.rank_lt hstep
  | tail _ hstep ih => exact UInt16.lt_trans (h.rank_lt hstep) ih

/-- No node further on has the same address.  If one had, the node before it would send to both, and
so to one of a rank that is not lower. -/
theorem Consistent.address_ne_of_transGen (h : Consistent nodes)
    (hnm : TransGen (Follows nodes) n m) : n.address ≠ m.address := by
  intro heq
  obtain ⟨_, ⟨hn, -⟩, -⟩ := TransGen.head'_iff.1 hnm
  obtain ⟨k, hnk, hk, -, hparent⟩ := TransGen.tail'_iff.1 hnm
  have hback : Follows nodes k n := ⟨hk, hn, hparent.trans (congrArg some heq.symm)⟩
  have hround : TransGen (Follows nodes) n n := TransGen.tail' hnk hback
  exact UInt16.lt_irrefl n.rank (h.rank_lt_of_transGen hround)

/-- **No loops.**  Where each parent was chosen from the table that is there and the table has the
parent's rank as it now is, the rank falls with each hop, and no path along the parents comes to an
address twice. -/
theorem loop_free (h : Consistent nodes) :
    (∀ n m, Follows nodes n m → m.rank < n.rank) ∧
      ∀ path : List RoutingNode, path.IsChain (Follows nodes) →
        (path.map (·.address)).Nodup := by
  constructor
  · intro n m hnm
    exact h.rank_lt hnm
  · intro path hpath
    have hreach : path.IsChain (TransGen (Follows nodes)) :=
      hpath.imp fun _ _ hstep => TransGen.single hstep
    rw [List.isChain_iff_pairwise] at hreach
    rw [List.Nodup, List.pairwise_map]
    exact hreach.imp fun hnm => h.address_ne_of_transGen hnm

/-! A root, a node that counts hops and a node that looks at delivery ratios.  The last one also
hears the root, but almost nothing that it sends there arrives. -/

/-- The root. -/
def rootNode : RoutingNode :=
  ⟨.ofLastByte 1, (Router.fresh (.hopCount ⟨256, 128⟩) .none).becomeRoot, .empty⟩

/-- A node that has just chosen its parent from these neighbours, for the first time. -/
def newcomer (address : Address) (o : Objective) (t : NeighborTable) : RoutingNode :=
  ⟨address, ((Router.fresh o .none).reselect t).1, t⟩

/-- The node next to the root. -/
def nearNode : RoutingNode :=
  newcomer (.ofLastByte 2) (.hopCount ⟨256, 128⟩) ⟨[⟨.ofLastByte 1, 256, 128, 0, 0⟩]⟩

/-- The node that the root hardly hears. -/
def farNode : RoutingNode :=
  newcomer (.ofLastByte 3) (.deliveryRatio ⟨1, 0⟩)
    ⟨[⟨.ofLastByte 1, 256, 1, 0, 0⟩, ⟨.ofLastByte 2, 512, 64256, 0, 0⟩]⟩

/-- The three nodes know of each other what is the case. -/
theorem consistent_far_near_root : Consistent [farNode, nearNode, rootNode] := by
  refine ⟨by decide, ?_, ?_⟩
  · intro n hn parent hparent
    simp only [List.mem_cons, List.not_mem_nil, or_false] at hn
    rcases hn with rfl | rfl | rfl
    · cases hparent
      exact ⟨.fresh (.deliveryRatio ⟨1, 0⟩) .none, _, rfl, rfl, rfl⟩
    · cases hparent
      exact ⟨.fresh (.hopCount ⟨256, 128⟩) .none, _, rfl, rfl, rfl⟩
    · cases hparent
  · have htrue : ∀ n ∈ [farNode, nearNode, rootNode], ∀ m ∈ [farNode, nearNode, rootNode],
        n.router.dag.parent = some m.address → ∀ e ∈ n.neighbors.entries,
        e.address = m.address → e.rank = m.rank := by decide
    rintro n m ⟨hn, hm, hparent⟩
    exact htrue n hn m hm hparent

/-- Ranks fall from the far node to the near one and to the root. -/
theorem loop_free_far_near_root :
    Consistent [farNode, nearNode, rootNode] ∧
      [farNode, nearNode, rootNode].IsChain (Follows [farNode, nearNode, rootNode]) ∧
      nearNode.rank < farNode.rank ∧ rootNode.rank < nearNode.rank ∧
      ([farNode, nearNode, rootNode].map (·.address)).Nodup := by
  have hfar : Follows [farNode, nearNode, rootNode] farNode nearNode :=
    ⟨by simp, by simp, by decide⟩
  have hnear : Follows [farNode, nearNode, rootNode] nearNode rootNode :=
    ⟨by simp, by simp, by decide⟩
  have hpath : [farNode, nearNode, rootNode].IsChain (Follows [farNode, nearNode, rootNode]) :=
    .cons_cons hfar (.cons_cons hnear (.singleton _))
  obtain ⟨hfalls, hnodup⟩ := loop_free consistent_far_near_root
  exact ⟨consistent_far_near_root, hpath, hfalls _ _ hfar, hfalls _ _ hnear, hnodup _ hpath⟩

end RoutingNode

end SlottedMesh
