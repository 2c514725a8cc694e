import Mathlib.Data.List.Induction
import Mathlib.Order.Basic
import SlottedMesh.Proofs.Routing.Choice

/-!
# Ties

Two neighbours may be equally good, and then their order in the table decides.  `Earliest` and
`Latest` say which of the elements of a list that satisfy a condition and have the least key is
meant: the first of them or the last.  Either is determined (`Earliest.unique`, `Latest.unique`) and
is there if anything satisfies the condition (`exists_earliest`, `exists_latest`).

A scan that replaces the element it holds by one of a smaller key keeps what it started with, or
else finds the earliest of the least (`leastFrom_cases`); one that keeps it only against a greater
key finds the latest (`latest_foldl`).  The two passes of hop counting are two scans of the first
kind: `HopCount.selectBy_two_passes` says what they choose, for lists of any length with whatever
ties.
-/

namespace SlottedMesh

/-! ## The earliest and the latest of the least -/

section

variable {α β : Type} [Preorder β] {P Q : α → Prop} {key : α → β} {xs : List α} {x y : α}

/-- Of the elements of the list that satisfy `P` and have the least key, `x` is the first. -/
structure Earliest (P : α → Prop) (key : α → β) (xs : List α) (x : α) : Prop where
  /-- It satisfies `P`. -/
  holds : P x
  /-- What comes before it has a greater key, and what comes after it no smaller one. -/
  splits : ∃ before after, xs = before ++ x :: after ∧ (∀ y ∈ before, P y → key x < key y) ∧
    ∀ y ∈ after, P y → key x ≤ key y

/-- Of the elements of the list that satisfy `P` and have the least key, `x` is the last. -/
structure Latest (P : α → Prop) (key : α → β) (xs : List α) (x : α) : Prop where
  /-- It satisfies `P`. -/
  holds : P x
  /-- What comes before it has no smaller key, and what comes after it a greater one. -/
  splits : ∃ before after, xs = before ++ x :: after ∧ (∀ y ∈ before, P y → key x ≤ key y) ∧
    ∀ y ∈ after, P y → key x < key y

/-- The latest is the earliest from the end. -/
theorem latest_iff_reverse : Latest P key xs x ↔ Earliest P key xs.reverse x := by
  constructor
  · rintro ⟨hx, before, after, rfl, hbefore, hafter⟩
    refine ⟨hx, after.reverse, before.reverse, by simp, fun y hy => ?_, fun y hy => ?_⟩
    · exact hafter y (List.mem_reverse.1 hy)
    · exact hbefore y (List.mem_reverse.1 hy)
  · rintro ⟨hx, before, after, hxs, hbefore, hafter⟩
    refine ⟨hx, after.reverse, before.reverse, ?_, fun y hy => ?_, fun y hy => ?_⟩
    · rw [← List.reverse_reverse xs, hxs]
      simp
    · exact hafter y (List.mem_reverse.1 hy)
    · exact hbefore y (List.mem_reverse.1 hy)

namespace Earliest

/-- The earliest is one of them. -/
theorem mem (h : Earliest P key xs x) : x ∈ xs := by
  obtain ⟨before, after, rfl, -, -⟩ := h.splits
  exact List.mem_append_right _ List.mem_cons_self

/-- Its key is the least. -/
theorem key_le (h : Earliest P key xs x) (hy : y ∈ xs) (hP : P y) : key x ≤ key y := by
  obtain ⟨before, after, rfl, hbefore, hafter⟩ := h.splits
  rcases List.mem_append.1 hy with hy | hy
  · exact (hbefore y hy hP).le
  · rcases List.mem_cons.1 hy with rfl | hy
    · exact le_rfl
    · exact hafter y hy hP

/-- There is one earliest. -/
theorem unique (hx : Earliest P key xs x) (hy : Earliest P key xs y) : x = y := by
  obtain ⟨before, after, rfl, hbefore, -⟩ := hx.splits
  obtain ⟨before', after', heq, hbefore', -⟩ := hy.splits
  have hleast := hx.key_le hy.mem hy.holds
  have hleast' := hy.key_le hx.mem hx.holds
  -- if one stood before the other, its key would be greater
  rcases List.append_eq_append_iff.1 heq with ⟨between, rfl, hrest⟩ | ⟨between, rfl, hrest⟩
  · rcases List.cons_eq_append_iff.1 hrest with ⟨-, hcons⟩ | ⟨rest, rfl, -⟩
    · exact (List.cons.inj hcons).1.symm
    · exact absurd hleast
        (hbefore' x (List.mem_append_right _ List.mem_cons_self) hx.holds).not_ge
  · rcases List.cons_eq_append_iff.1 hrest with ⟨-, hcons⟩ | ⟨rest, rfl, -⟩
    · exact (List.cons.inj hcons).1
    · exact absurd hleast'
        (hbefore y (List.mem_append_right _ List.mem_cons_self) hy.holds).not_ge

/-- The first element is the earliest if no key is smaller than its own. -/
theorem head (hx : P x) (hleast : ∀ y ∈ xs, P y → key x ≤ key y) : Earliest P key (x :: xs) x :=
  ⟨hx, [], xs, rfl, nofun, hleast⟩

/-- An element of a greater key may stand in front. -/
theorem cons (h : Earliest P key xs x) (hy : P y → key x < key y) :
    Earliest P key (y :: xs) x := by
  obtain ⟨before, after, hxs, hbefore, hafter⟩ := h.splits
  exact ⟨h.holds, y :: before, after, congrArg (y :: ·) hxs,
    List.forall_mem_cons.2 ⟨hy, hbefore⟩, hafter⟩

/-- Further elements may be considered if their keys are greater. -/
theorem widen (h : Earliest P key xs x) (hx : Q x) (hQ : ∀ y, Q y → P y ∨ key x < key y) :
    Earliest Q key xs x := by
  obtain ⟨before, after, hxs, hbefore, hafter⟩ := h.splits
  refine ⟨hx, before, after, hxs, fun y hy hy' => ?_, fun y hy hy' => ?_⟩
  · rcases hQ y hy' with hP | hlt
    · exact hbefore y hy hP
    · exact hlt
  · rcases hQ y hy' with hP | hlt
    · exact hafter y hy hP
    · exact hlt.le

/-- What is the earliest of those that pass a filter is the earliest among all. -/
theorem of_filter {p : α → Bool} (h : Earliest (fun _ => True) key (xs.filter p) x) :
    Earliest (fun y => p y = true) key xs x := by
  obtain ⟨before, after, hxs, hbefore, hafter⟩ := h.splits
  obtain ⟨start, rest, rfl, rfl, hrest⟩ := List.filter_eq_append_iff.1 hxs
  obtain ⟨skipped, end', rfl, hskipped, hx, rfl⟩ := List.filter_eq_cons_iff.1 hrest
  refine ⟨hx, start ++ skipped, end', by simp, fun y hy hp => ?_, fun y hy hp => ?_⟩
  · rcases List.mem_append.1 hy with hy | hy
    · exact hbefore y (List.mem_filter.2 ⟨hy, hp⟩) trivial
    · exact absurd hp (hskipped y hy)
  · exact hafter y (List.mem_filter.2 ⟨hy, hp⟩) trivial

end Earliest

namespace Latest

/-- The latest is one of them. -/
theorem mem (h : Latest P key xs x) : x ∈ xs := List.mem_reverse.1 (latest_iff_reverse.1 h).mem

/-- Its key is the least. -/
theorem key_le (h : Latest P key xs x) (hy : y ∈ xs) (hP : P y) : key x ≤ key y :=
  (latest_iff_reverse.1 h).key_le (List.mem_reverse.2 hy) hP

/-- There is one latest. -/
theorem unique (hx : Latest P key xs x) (hy : Latest P key xs y) : x = y :=
  (latest_iff_reverse.1 hx).unique (latest_iff_reverse.1 hy)

/-- The last element is the latest if no key is smaller than its own. -/
theorem last (hx : P x) (hleast : ∀ y ∈ xs, P y → key x ≤ key y) : Latest P key (xs ++ [x]) x :=
  ⟨hx, xs, [], rfl, hleast, nofun⟩

/-- An element of a greater key may follow. -/
theorem concat (h : Latest P key xs x) (hy : P y → key x < key y) :
    Latest P key (xs ++ [y]) x := by
  obtain ⟨before, after, rfl, hbefore, hafter⟩ := h.splits
  refine ⟨h.holds, before, after ++ [y], by simp, hbefore, fun z hz hP => ?_⟩
  rcases List.mem_append.1 hz with hz | hz
  · exact hafter z hz hP
  · rw [List.mem_singleton.1 hz]
    exact hy (List.mem_singleton.1 hz ▸ hP)

/-- What is the latest of those that pass a filter is the latest among all. -/
theorem of_filter {p : α → Bool} (h : Latest (fun _ => True) key (xs.filter p) x) :
    Latest (fun y => p y = true) key xs x := by
  rw [latest_iff_reverse, ← List.filter_reverse] at h
  exact latest_iff_reverse.2 h.of_filter

/-- The last of the least is the first of them only if there is no other. -/
theorem earliest_iff (h : Latest P key xs x) (hnodup : xs.Nodup) :
    Earliest P key xs x ↔ ∀ y ∈ xs, P y → key y ≤ key x → y = x := by
  obtain ⟨hx, before, after, rfl, hbefore, hafter⟩ := h
  obtain ⟨hfresh, -⟩ := List.nodup_cons.1 (List.nodup_middle.1 hnodup)
  rw [List.mem_append, not_or] at hfresh
  constructor
  · rintro ⟨-, before', after', hsplit, hbefore', -⟩ y hy hP hkey
    -- there is one way to split the list at `x`
    obtain ⟨rfl, -, rfl⟩ := (List.append_cons_inj_of_notMem hfresh.1 hfresh.2).1 hsplit
    rcases List.mem_append.1 hy with hy | hy
    · exact absurd hkey (hbefore' y hy hP).not_ge
    · rcases List.mem_cons.1 hy with rfl | hy
      · rfl
      · exact absurd hkey (hafter y hy hP).not_ge
  · intro honly
    refine ⟨hx, before, after, rfl, fun y hy hP => ?_, fun y hy hP => (hafter y hy hP).le⟩
    refine (hbefore y hy hP).lt_of_not_ge fun hkey => hfresh.1 ?_
    rwa [← honly y (List.mem_append_left _ hy) hP hkey]

end Latest

end

/-! ## What a scan finds -/

/-- A scan that keeps the element it holds only against a greater key finds the latest of the
least. -/
theorem latest_foldl {α β : Type} [LinearOrder β] {key : α → β} {better : α → α → α}
    (hbetter : ∀ x y, better x y = if key x < key y then x else y) (x : α) (xs : List α) :
    Latest (fun _ => True) key (x :: xs) (xs.foldl better x) := by
  induction xs using List.reverseRecOn with
  | nil => exact ⟨trivial, [], [], rfl, nofun, nofun⟩
  | append_singleton ys y ih =>
    rw [List.foldl_append, List.foldl_cons, List.foldl_nil, hbetter, ← List.cons_append]
    split
    · rename_i hlt
      exact ih.concat fun _ => hlt
    · rename_i hge
      exact .last trivial fun z hz _ => (not_lt.1 hge).trans (ih.key_le hz trivial)

section

variable {α : Type} {key : α → Nat} {xs : List α} {x : α}

/-- A scan that starts with `x` ends with it if no key is smaller, and otherwise with the earliest
of the least. -/
theorem leastFrom_cases (key : α → Nat) (x : α) (xs : List α) :
    (leastFrom key x xs = x ∧ ∀ y ∈ xs, key x ≤ key y) ∨
      (key (leastFrom key x xs) < key x ∧
        Earliest (fun _ => True) key xs (leastFrom key x xs)) := by
  induction xs generalizing x with
  | nil => exact .inl ⟨rfl, nofun⟩
  | cons z zs ih =>
    have hscan : leastFrom key x (z :: zs) = leastFrom key (if key z < key x then z else x) zs :=
      rfl
    rw [hscan]
    split
    · -- `z` is held from here on
      rename_i hlt
      rcases ih z with ⟨heq, hleast⟩ | ⟨hsmaller, hearliest⟩
      · rw [heq]
        exact .inr ⟨hlt, .head trivial fun y hy _ => hleast y hy⟩
      · exact .inr ⟨Nat.lt_trans hsmaller hlt, hearliest.cons fun _ => hsmaller⟩
    · rename_i hge
      rcases ih x with ⟨heq, hleast⟩ | ⟨hsmaller, hearliest⟩
      · exact .inl ⟨heq, List.forall_mem_cons.2 ⟨Nat.not_lt.1 hge, hleast⟩⟩
      · exact .inr ⟨hsmaller, hearliest.cons fun _ =>
          Nat.lt_of_lt_of_le hsmaller (Nat.not_lt.1 hge)⟩

/-- The scan finds the earliest of those with the least key. -/
theorem earliest_least? (h : least? key xs = some x) : Earliest (fun _ => True) key xs x := by
  cases xs with
  | nil => cases h
  | cons y ys =>
    obtain rfl : leastFrom key y ys = x := Option.some.inj h
    rcases leastFrom_cases key y ys with ⟨heq, hleast⟩ | ⟨hsmaller, hearliest⟩
    · rw [heq]
      exact .head trivial fun z hz _ => hleast z hz
    · exact hearliest.cons fun _ => hsmaller

/-- A list that is not empty has a least element, -/
theorem exists_least? (key : α → Nat) (hx : x ∈ xs) : ∃ first, least? key xs = some first := by
  cases xs with
  | nil => cases hx
  | cons y ys => exact ⟨_, rfl⟩

/-- an earliest one, -/
theorem exists_earliest (key : α → Nat) (hx : x ∈ xs) :
    ∃ first, Earliest (fun _ => True) key xs first := by
  obtain ⟨first, hfirst⟩ := exists_least? key hx
  exact ⟨first, earliest_least? hfirst⟩

/-- and a latest one. -/
theorem exists_latest (key : α → Nat) (hx : x ∈ xs) :
    ∃ last, Latest (fun _ => True) key xs last := by
  obtain ⟨last, hlast⟩ := exists_earliest key (List.mem_reverse.2 hx)
  exact ⟨last, latest_iff_reverse.2 hlast⟩

end

/-! ## Two passes -/

namespace HopCount

variable {α : Type} {neighbor : α → Neighbor} {band band' : UInt16} {candidates : List α}
  {b c c' : α}

/-- `b` has the best link: of the candidates with a way to the root and the least link metric it is
the first. -/
def BestLink (neighbor : α → Neighbor) (candidates : List α) (b : α) : Prop :=
  Earliest (fun c => (neighbor c).isFinite = true) (fun c => (neighbor c).linkMetric.toNat)
    candidates b

/-- `c` is considered in the second pass: it is `b`, or it has a way to the root and its link metric
is less than `band` above that of `b`. -/
def Considered (neighbor : α → Neighbor) (band : UInt16) (b c : α) : Prop :=
  c = b ∨ (neighbor c).isFinite = true ∧
    (neighbor c).linkMetric.toNat < (neighbor b).linkMetric.toNat + band.toNat

/-- The candidates of the second pass, where `b` has the best link. -/
def inBand (neighbor : α → Neighbor) (band : UInt16) (candidates : List α) (b : α) : List α :=
  candidates.filter fun c => (neighbor c).isFinite &&
    decide ((neighbor c).linkMetric.toNat < (neighbor b).linkMetric.toNat + band.toNat)

/-- In the band are the finite candidates whose metric is less than the band above the best. -/
theorem mem_inBand : c ∈ inBand neighbor band candidates b ↔ c ∈ candidates ∧
    (neighbor c).isFinite = true ∧
      (neighbor c).linkMetric.toNat < (neighbor b).linkMetric.toNat + band.toNat := by
  simp [inBand]

/-- The first pass finds the best link, and the second starts with it. -/
theorem selectBy_of_bestLink (hb : BestLink neighbor candidates b) (band : UInt16) :
    selectBy neighbor band candidates = some
      (leastFrom (fun c => (neighbor c).rank.toNat) b (inBand neighbor band candidates b)) := by
  have hmem : b ∈ candidates.filter fun c => (neighbor c).isFinite :=
    List.mem_filter.2 ⟨hb.mem, hb.holds⟩
  obtain ⟨first, hfirst⟩ := exists_least? (fun c => (neighbor c).linkMetric.toNat) hmem
  obtain rfl : first = b := (earliest_least? hfirst).of_filter.unique hb
  simp only [selectBy, hfirst, Option.map_some, List.filter_filter, inBand, Bool.and_comm]

/-- The second pass keeps the best link, if no rank in the band is lower, and otherwise finds the
earliest of the lowest rank. -/
theorem cases_of_selectBy (hb : BestLink neighbor candidates b)
    (hc : selectBy neighbor band candidates = some c) :
    (c = b ∧ ∀ x ∈ inBand neighbor band candidates b,
        (neighbor b).rank.toNat ≤ (neighbor x).rank.toNat) ∨
      ((neighbor c).rank.toNat < (neighbor b).rank.toNat ∧
        Earliest (Considered neighbor band b) (fun x => (neighbor x).rank.toNat) candidates c ∧
        c ∈ inBand neighbor band candidates b) := by
  rw [selectBy_of_bestLink hb] at hc
  cases hc
  rcases leastFrom_cases (fun c => (neighbor c).rank.toNat) b (inBand neighbor band candidates b)
    with hkept | ⟨hlower, hearliest⟩
  · exact .inl hkept
  · have hmem := hearliest.mem
    refine .inr ⟨hlower, hearliest.of_filter.widen (.inr (mem_inBand.1 hmem).2) ?_, hmem⟩
    rintro y (rfl | ⟨hfinite, hnear⟩)
    · exact .inr hlower
    · exact .inl (by simp only [hfinite, hnear, decide_true, Bool.and_self])

/-- A wider band brings no higher rank. -/
theorem rank_le_of_selectBy (hb : BestLink neighbor candidates b) (hband : band ≤ band')
    (hc : selectBy neighbor band candidates = some c)
    (hc' : selectBy neighbor band' candidates = some c') :
    (neighbor c').rank ≤ (neighbor c).rank := by
  have hmem : c ∈ b :: inBand neighbor band' candidates b := by
    rcases cases_of_selectBy hb hc with ⟨rfl, -⟩ | ⟨-, -, hc⟩
    · exact List.mem_cons_self
    · obtain ⟨hc, hfinite, hnear⟩ := mem_inBand.1 hc
      have hwider : band.toNat ≤ band'.toNat := UInt16.le_iff_toNat_le.1 hband
      exact List.mem_cons_of_mem _ (mem_inBand.2 ⟨hc, hfinite, by omega⟩)
  rw [selectBy_of_bestLink hb] at hc'
  cases hc'
  exact UInt16.le_iff_toNat_le.2 (key_leastFrom_le (fun c => (neighbor c).rank.toNat) b _ c hmem)

/-- **The two passes.**  Hop counting finds no parent exactly if no candidate has a way to the root.
Otherwise let `b` have the best link.  The choice is `b`, if no candidate that is considered has a
lower rank, and otherwise the earliest one of the lowest rank among those that are considered.  So
its rank is not above that of `b` and does not rise with the band, and its link metric is that of
`b` or lies in the band.  Candidates only stand for neighbours, so that equal neighbours at two
places of a table may be told apart; for `select` they are the neighbours themselves. -/
theorem selectBy_two_passes (neighbor : α → Neighbor) (candidates : List α) :
    (∀ band, selectBy neighbor band candidates = none ↔
      ∀ c ∈ candidates, (neighbor c).isFinite = false) ∧
    ((∃ c ∈ candidates, (neighbor c).isFinite = true) →
      ∃ b, BestLink neighbor candidates b ∧
        (∀ band, ∃ c, selectBy neighbor band candidates = some c ∧
          ((∀ x ∈ candidates, Considered neighbor band b x →
            ¬(neighbor x).rank < (neighbor b).rank) → c = b) ∧
          ((∃ x ∈ candidates, Considered neighbor band b x ∧
            (neighbor x).rank < (neighbor b).rank) →
              Earliest (Considered neighbor band b) (fun x => (neighbor x).rank.toNat)
                candidates c) ∧
          (neighbor c).rank ≤ (neighbor b).rank ∧
          ((neighbor c).linkMetric = (neighbor b).linkMetric ∨
            (neighbor b).linkMetric.toNat ≤ (neighbor c).linkMetric.toNat ∧
              (neighbor c).linkMetric.toNat <
                (neighbor b).linkMetric.toNat + band.toNat)) ∧
        ∀ band band' c c', band ≤ band' → selectBy neighbor band candidates = some c →
          selectBy neighbor band' candidates = some c' →
            (neighbor c').rank ≤ (neighbor c).rank) := by
  refine ⟨fun band => ?_, fun hsome => ?_⟩
  · rw [selectBy_eq_none_iff, List.filter_eq_nil_iff]
    simp only [Bool.not_eq_true]
  obtain ⟨c, hc, hfinite⟩ := hsome
  have hmem : c ∈ candidates.filter fun c => (neighbor c).isFinite :=
    List.mem_filter.2 ⟨hc, hfinite⟩
  obtain ⟨b, hb⟩ := exists_earliest (fun c => (neighbor c).linkMetric.toNat) hmem
  have hb : BestLink neighbor candidates b := hb.of_filter
  refine ⟨b, hb, fun band => ?_, fun band band' c c' => rank_le_of_selectBy hb⟩
  obtain ⟨c, hc⟩ : ∃ c, selectBy neighbor band candidates = some c :=
    ⟨_, selectBy_of_bestLink hb band⟩
  refine ⟨c, hc, ?_⟩
  rcases cases_of_selectBy hb hc with ⟨rfl, hleast⟩ | ⟨hlower, hearliest, hmem⟩
  · refine ⟨fun _ => rfl, ?_, UInt16.le_refl _, .inl rfl⟩
    rintro ⟨x, hx, rfl | hnear, hlt⟩
    · exact absurd hlt (UInt16.lt_irrefl _)
    · exact absurd (UInt16.lt_iff_toNat_lt.1 hlt)
        (Nat.not_lt.2 (hleast x (mem_inBand.2 ⟨hx, hnear⟩)))
  · obtain ⟨hc, hfinite, hnear⟩ := mem_inBand.1 hmem
    refine ⟨fun hkept => ?_, fun _ => hearliest, UInt16.le_of_lt (UInt16.lt_iff_toNat_lt.2 hlower),
      .inr ⟨hb.key_le hc hfinite, hnear⟩⟩
    exact absurd (UInt16.lt_iff_toNat_lt.2 hlower) (hkept c hc hearliest.holds)

/-- Links that are equally good are in the band of one another, unless it is empty. -/
example :
    let ns : List Neighbor := [⟨.ofLastByte 1, 6, 40, 0, 0⟩, ⟨.ofLastByte 2, 5, 40, 0, 0⟩,
      ⟨.ofLastByte 3, 5, 40, 0, 0⟩]
    select ⟨1, 0⟩ ns = ns[0]? ∧ select ⟨1, 1⟩ ns = ns[1]? := by
  decide +kernel

end HopCount

end SlottedMesh
