/-! How alike two words are. Letters match that stand at about the same place in both, each once;
the similarity is the mean of the share of either word that matches and of the share of the matches
that are in the same order. -/

namespace Mockup.Text

/-- Pairs the letters of `a`, which stand from `i` on, with the first letter of `b` that is the
same, lies within `reach`, and is not `taken`. The places in `b` are returned. -/
def matched (b : List Char) (reach : Nat) : (i : Nat) → (taken : List Nat) → List Char →
    List (Char × Nat)
  | _, _, [] => []
  | i, taken, c :: a =>
    let place := (b.zipIdx.take (i + reach + 1)).find? fun (d, j) =>
      d = c && i - reach ≤ j && !taken.contains j
    match place with
    | some (_, j) => (c, j) :: matched b reach (i + 1) (j :: taken) a
    | none => matched b reach (i + 1) taken a

/-- Between zero, where no letter matches, and one, where all do and in order. -/
def similarity (a b : List Char) : Rat :=
  let pairs := matched b (max a.length b.length / 2 - 1) 0 [] a
  let inOrder := (pairs.map (·.2)).mergeSort (· ≤ ·)
  let moved := ((pairs.zip inOrder).filter fun ((c, _), j) => b[j]? ≠ some c).length / 2
  let share (n m : Nat) : Rat := (n : Rat) / (m : Rat)
  if pairs.isEmpty then 0
  else
    (share pairs.length a.length + share pairs.length b.length +
      share (pairs.length - moved) pairs.length) / 3

end Mockup.Text
