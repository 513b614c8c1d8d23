/-! Cutting a list where another one occurs in it: at its start, or at the first place where it
does. -/

namespace Mockup.Text

variable {α : Type} [BEq α]

/-- What follows `p` at the start of a list. -/
def past? : (p s : List α) → Option (List α)
  | [], s => some s
  | c :: p, d :: s => if c == d then past? p s else none
  | _ :: _, [] => none

theorem past?_eq_some_iff [LawfulBEq α] {p s r : List α} : past? p s = some r ↔ s = p ++ r := by
  induction p generalizing s with
  | nil => exact ⟨fun h => by cases h; rfl, fun h => by rw [h]; rfl⟩
  | cons c p ih =>
    cases s with
    | nil => exact ⟨fun h => (nomatch h), fun h => (nomatch h)⟩
    | cons d s =>
      rw [past?, List.cons_append, List.cons.injEq]
      split
      · rename_i hc
        rw [ih, eq_of_beq hc]
        exact ⟨fun h => ⟨rfl, h⟩, And.right⟩
      · rename_i hc
        exact ⟨fun h => (nomatch h), fun h => absurd (beq_iff_eq.2 h.1.symm) hc⟩

theorem suffix_of_past? [LawfulBEq α] {p s r : List α} (h : past? p s = some r) : r <:+ s := by
  rw [past?_eq_some_iff.1 h]
  exact List.suffix_append p r

/-- What stands before and after the first occurrence of `needle`. -/
def cut (needle : List α) : List α → Option (List α × List α)
  | [] => if needle.isEmpty then some ([], []) else none
  | c :: s =>
    match past? needle (c :: s) with
    | some r => some ([], r)
    | none => (cut needle s).map fun (b, r) => (c :: b, r)

theorem eq_append_of_cut [LawfulBEq α] {needle s b r : List α} (h : cut needle s = some (b, r)) :
    s = b ++ (needle ++ r) := by
  induction s generalizing b with
  | nil =>
    rw [cut] at h
    split at h
    · rename_i hn
      cases h
      rw [List.isEmpty_iff.1 hn]
      rfl
    · cases h
  | cons c s ih =>
    rw [cut] at h
    split at h
    · rename_i hr
      cases h
      rw [List.nil_append]
      exact past?_eq_some_iff.1 hr
    · rw [Option.map_eq_some_iff] at h
      obtain ⟨⟨b', r'⟩, h, he⟩ := h
      cases he
      rw [ih h, List.cons_append]

theorem suffix_of_cut [LawfulBEq α] {needle s b r : List α} (h : cut needle s = some (b, r)) :
    r <:+ s := by
  rw [eq_append_of_cut h]
  exact (List.suffix_append needle r).trans (List.suffix_append b _)

def occurs (needle s : List α) : Bool := (cut needle s).isSome

end Mockup.Text
