/-!
# Texts in pieces

Cutting a text at every occurrence of a separator and putting it together again.  Both lose nothing:
`join_split` gives back the text that was cut.
-/

namespace SlottedMesh.Pieces

/-- The pieces of a text between the occurrences of `sep`; one more than there are of them. -/
def split (sep : Char) : List Char → List (List Char)
  | [] => [[]]
  | c :: cs =>
    if c = sep then [] :: split sep cs
    else match split sep cs with
      | [] => [[c]]
      | p :: ps => (c :: p) :: ps

/-- The pieces with `sep` between them. -/
def join (sep : Char) : List (List Char) → List Char
  | [] => []
  | [p] => p
  | p :: q :: ps => p ++ sep :: join sep (q :: ps)

/-- A text has a piece, at the least the empty one. -/
theorem split_ne_nil (sep : Char) (cs : List Char) : split sep cs ≠ [] := by
  cases cs with
  | nil => simp [split]
  | cons c cs =>
    simp only [split]
    split
    · simp
    · split <;> simp

/-- Putting the pieces together gives the text back. -/
theorem join_split (sep : Char) (cs : List Char) : join sep (split sep cs) = cs := by
  induction cs with
  | nil => rfl
  | cons c cs ih =>
    simp only [split]
    match hps : split sep cs with
    | [] => exact absurd hps (split_ne_nil sep cs)
    | p :: ps =>
      rw [hps] at ih
      split
      · rename_i hc
        simp [join, hc, ih]
      · cases ps with
        | nil => simpa [join] using ih
        | cons q qs => simpa [join] using ih

end SlottedMesh.Pieces
