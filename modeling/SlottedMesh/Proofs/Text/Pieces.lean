import Mathlib.Data.List.Forall2
import SlottedMesh.Text.Pieces

/-!
# Texts in pieces, as lists

Cutting a text at a separator and putting pieces together are the operations of the same kind on
lists (`split_eq_splitOn`, `join_eq_intercalate`), so that pieces without separators that were put
together are found again when the text is cut.  `mapM_eq_some_iff` is about reading the pieces one
by one, where none may be unreadable.
-/

namespace SlottedMesh.Pieces

/-- Splitting a text is splitting the list of its characters. -/
theorem split_eq_splitOn (sep : Char) (cs : List Char) : split sep cs = cs.splitOn sep := by
  induction cs with
  | nil => rfl
  | cons c cs ih =>
    rw [split, ih, List.splitOn_cons_eq_if_modifyHead]
    by_cases hc : c = sep
    · rw [if_pos hc, if_pos (beq_iff_eq.2 hc)]
    · rw [if_neg hc, if_neg (mt beq_iff_eq.1 hc)]
      cases hps : cs.splitOn sep with
      | nil => exact absurd hps (List.splitOn_ne_nil sep cs)
      | cons p ps => rfl

/-- Joining pieces puts the separator between them. -/
theorem join_eq_intercalate (sep : Char) (ps : List (List Char)) :
    join sep ps = [sep].intercalate ps := by
  induction ps with
  | nil => rfl
  | cons p ps ih =>
    cases ps with
    | nil => simp [join, List.intercalate]
    | cons q qs =>
      rw [join, ih]
      simp [List.intercalate]

/-- Pieces without separators are found again. -/
theorem splitOn_join {sep : Char} {ps : List (List Char)} (hps : ∀ p ∈ ps, sep ∉ p)
    (hne : ps ≠ []) : (join sep ps).splitOn sep = ps := by
  rw [join_eq_intercalate]
  exact List.splitOn_intercalate sep hps hne

/-- Texts with the same pieces are the same. -/
theorem splitOn_inj {sep : Char} {cs ds : List Char} (h : cs.splitOn sep = ds.splitOn sep) :
    cs = ds := by
  rw [← join_split sep cs, split_eq_splitOn, h, ← split_eq_splitOn, join_split]

/-- Every piece but the last one is followed by a separator. -/
theorem length_join (sep : Char) {ps : List (List Char)} {k : Nat} (hps : ∀ p ∈ ps, p.length = k)
    (hne : ps ≠ []) : (join sep ps).length + 1 = ps.length * (k + 1) := by
  induction ps with
  | nil => exact absurd rfl hne
  | cons p ps ih =>
    obtain ⟨hp, hrest⟩ := List.forall_mem_cons.1 hps
    cases ps with
    | nil => simp [join, hp]
    | cons q qs =>
      have hlength := ih hrest (List.cons_ne_nil q qs)
      rw [join, List.length_append, List.length_cons, List.length_cons, Nat.succ_mul, ← hlength, hp]
      omega

/-- All elements can be read, and this is what is read. -/
theorem mapM_eq_some_iff {α β : Type} {f : α → Option β} {xs : List α} {ys : List β} :
    xs.mapM f = some ys ↔ List.Forall₂ (fun x y => f x = some y) xs ys := by
  induction xs generalizing ys with
  | nil => simp [eq_comm]
  | cons x xs ih =>
    rw [List.forall₂_cons_left_iff]
    simp only [List.mapM_cons, Option.bind_eq_bind, Option.bind_eq_some_iff, Option.pure_def,
      Option.some.injEq, ih]
    constructor
    · rintro ⟨y, hy, ys', hys', rfl⟩
      exact ⟨y, ys', hy, hys', rfl⟩
    · rintro ⟨y, ys', hy, hys', rfl⟩
      exact ⟨y, hy, ys', hys', rfl⟩

/-- Each element is related to something, and so all of them are to a list. -/
theorem exists_forall₂_iff {α β : Type} {R : α → β → Prop} {xs : List α} :
    (∃ ys, List.Forall₂ R xs ys) ↔ ∀ x ∈ xs, ∃ y, R x y := by
  induction xs with
  | nil => simp
  | cons x xs ih =>
    rw [List.forall_mem_cons, ← ih]
    constructor
    · rintro ⟨_, h⟩
      obtain ⟨y, ys, hy, hys, -⟩ := List.forall₂_cons_left_iff.1 h
      exact ⟨⟨y, hy⟩, ys, hys⟩
    · rintro ⟨⟨y, hy⟩, ys, hys⟩
      exact ⟨y :: ys, .cons hy hys⟩

end SlottedMesh.Pieces
