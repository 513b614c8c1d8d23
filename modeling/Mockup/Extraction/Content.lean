import Mockup.Extraction.Fence

/-! Text without structure. Numbered headings and closed fences are deleted, and what is left is
taken whole, as the kind that its words suggest. -/

namespace Mockup.Extraction

open Text

/-- Up to and including the next fence, which must stand on the same line. -/
def toFenceOnLine (s : List Char) : Option (Unit × List Char) :=
  match cut fence s with
  | some (b, r) => if '\n' ∈ b then none else some ((), r)
  | none => none

theorem suffix_toFenceOnLine {s u r} (h : toFenceOnLine s = some (u, r)) : r <:+ s := by
  unfold toFenceOnLine at h
  split at h
  · rename_i hc
    split at h
    · simp at h
    · cases h; exact suffix_of_cut hc
  · simp at h

/-- Blanks, the word, and the rest of the line up to a fence. -/
def toHeadingEnd (word : List Char) (s : List Char) : Option (Unit × List Char) :=
  (past? word (trimStart s)).bind toFenceOnLine

theorem suffix_toHeadingEnd {word s u r} (h : toHeadingEnd word s = some (u, r)) : r <:+ s := by
  simp only [toHeadingEnd, Option.bind_eq_some_iff] at h
  obtain ⟨t, h₁, h₂⟩ := h
  exact (suffix_toFenceOnLine h₂).trans
    ((suffix_of_past? h₁).trans (List.dropWhile_suffix isBlank))

/-- A heading with its number and its word, through the fence that ends its line. -/
def numberedHeading (number : Char) (word : List Char) : Matcher Unit :=
  (Matcher.literal [number, '.'] (by simp)).andThen (toHeadingEnd word)
    fun _ _ _ => suffix_toHeadingEnd

def heading : Matcher Unit :=
  ((numberedHeading '1' "TypeScript".toList).orElse
    (numberedHeading '2' "HTML".toList)).orElse (numberedHeading '3' "CSS".toList)

/-- The text without headings, and then without closed fences. -/
def cleaned (raw : List Char) : List Char := closedFence.delete (heading.delete raw)

/-- The kind that the words of a text suggest. -/
def suggestedKind (s : List Char) : Option Kind :=
  if occurs "import".toList s && occurs "Component".toList s then some .logic
  else if occurs "<div".toList s || occurs "<mat-".toList s then some .markup
  else if '{' ∈ s && ':' ∈ s then some .stylesheet
  else none

/-- The whole cleaned text, as the kind that it suggests. -/
def heuristic (raw : List Char) : Option Sources :=
  (suggestedKind (cleaned raw)).map fun k => ({} : Sources).set k (trim (cleaned raw))

end Mockup.Extraction
