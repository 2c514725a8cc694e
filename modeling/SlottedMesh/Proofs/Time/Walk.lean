import Mathlib.Algebra.Order.Ring.Int
import SlottedMesh.Proofs.Time.Elapsed

/-!
# Many steps of a slot count

A count that is moved forward and back many times ends where a single move by the sum of all of them
would lead, round all `2 ^ 40` slot numbers (`toNat_walk`): each step is an addition modulo
`2 ^ 40`, and so is any number of them, whatever carries, borrows and wraps there are on the way.
How far the end lies from the start, in the low words, depends on that sum alone (`since_walk`); it
is the sum itself exactly if that is a signed number of thirty-two bits (`walk_exact`).
-/

namespace SlottedMesh.SlotNumber

/-- One step of a slot count. -/
inductive Move where
  /-- Forward by so many slots, be it the count itself or a copy that takes its place. -/
  | forward (k : UInt32)
  /-- Back by so many slots. -/
  | back (k : UInt32)
deriving DecidableEq

/-- The slot number after the step. -/
def Move.apply : Move → SlotNumber → SlotNumber
  | .forward k, n => n.advance k
  | .back k, n => n.retreat k

/-- How far the step leads, negative if it leads back. -/
def Move.distance : Move → Int
  | .forward k => k.toNat
  | .back k => -k.toNat

/-- The slot number after several steps, the first of them first. -/
def walk (n : SlotNumber) (moves : List Move) : SlotNumber :=
  moves.foldl (fun n move => move.apply n) n

/-- How far several steps lead together. -/
def displacement (moves : List Move) : Int := (moves.map Move.distance).sum

/-- A step is an addition modulo `2 ^ 40`. -/
theorem toNat_apply (move : Move) (n : SlotNumber) :
    ((move.apply n).toNat : Int) = (n.toNat + move.distance) % 2 ^ 40 := by
  cases move with
  | forward k =>
    have hstep := n.toNat_advance k
    rw [modulus_eq] at hstep
    simp only [Move.apply, Move.distance]
    omega
  | back k =>
    have hk := k.toNat_lt
    have hstep := n.toNat_retreat k
    rw [modulus_eq] at hstep
    simp only [Move.apply, Move.distance]
    omega

/-- So are several of them. -/
theorem toNat_walk (n : SlotNumber) (moves : List Move) :
    ((n.walk moves).toNat : Int) = (n.toNat + displacement moves) % 2 ^ 40 := by
  induction moves generalizing n with
  | nil =>
    have hn := n.toNat_lt
    rw [modulus_eq] at hn
    simp only [walk, displacement, List.foldl_nil, List.map_nil, List.sum_nil]
    omega
  | cons move moves ih =>
    have hsum : displacement (move :: moves) = move.distance + displacement moves :=
      List.sum_cons
    calc ((n.walk (move :: moves)).toNat : Int)
        = ((move.apply n).toNat + displacement moves) % 2 ^ 40 := ih (move.apply n)
      _ = (n.toNat + move.distance + displacement moves) % 2 ^ 40 := by
          rw [toNat_apply, Int.emod_add_emod]
      _ = (n.toNat + displacement (move :: moves)) % 2 ^ 40 := by rw [hsum, Int.add_assoc]

/-- The distance in the low words is what the steps lead to together, wrapped to thirty-two bits. -/
theorem since_walk (n : SlotNumber) (moves : List Move) :
    (n.walk moves).since n = (displacement moves).bmod (2 ^ 32) := by
  have hwalk := toNat_walk n moves
  rw [since_eq_bmod, hwalk]
  simp only [Int.bmod_def]
  omega

/-- **Steps as integers.**  After any steps the count is that of the start plus the sum of the
steps, modulo `2 ^ 40`.  The distance from the start is that sum if it is one of the numbers from
`-2 ^ 31` to `2 ^ 31 - 1`, and otherwise it is not. -/
theorem walk_exact (n : SlotNumber) (moves : List Move) :
    ((n.walk moves).toNat : Int) = (n.toNat + displacement moves) % 2 ^ 40 ∧
      ((n.walk moves).since n = displacement moves ↔
        -2 ^ 31 ≤ displacement moves ∧ displacement moves < 2 ^ 31) := by
  refine ⟨toNat_walk n moves, ?_⟩
  rw [since_walk, Int.bmod_def]
  omega

end SlottedMesh.SlotNumber
