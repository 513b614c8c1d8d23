import Mathlib.Data.List.Basic
import Mathlib.Data.List.Infix
import Mockup.Text.Cut

/-! Occurrences of one list in another. `cut` stops at the first occurrence and nowhere else. An
element that the needle lacks separates: no occurrence reaches over it. -/

namespace Mockup.Text

variable {α : Type} {n u v s b r : List α} {c : α}

/-! ### Separation -/

theorem prefix_append_cons_iff (hc : c ∉ n) : n <+: u ++ c :: v ↔ n <+: u := by
  refine ⟨fun h => ?_, fun h => h.trans (List.prefix_append u _)⟩
  rcases List.prefix_or_prefix_of_prefix h (List.prefix_append u (c :: v)) with hu | ⟨t, rfl⟩
  · exact hu
  · rw [List.prefix_append_right_inj] at h
    cases t with
    | nil => simp
    | cons d t =>
      obtain ⟨rfl, -⟩ := List.cons_prefix_cons.1 h
      simp at hc

/-- What follows `u` cannot take part in an occurrence that starts in `u`. -/
theorem prefix_of_prefix_append (hs : ∀ c ∈ s.head?, c ∉ n) (h : n <+: u ++ s) : n <+: u := by
  cases s with
  | nil => rwa [List.append_nil] at h
  | cons c s => exact (prefix_append_cons_iff (hs c rfl)).1 h

/-! ### The first occurrence -/

variable [BEq α] [LawfulBEq α]

/-- What stands before the first `c` and what behind it are told by the whole. -/
theorem append_cons_inj {w : List α} (hu : c ∉ u) (hw : c ∉ w) (h : u ++ c :: v = w ++ c :: s) :
    u = w ∧ v = s := by
  have hlen := congrArg (List.idxOf c) h
  rw [List.idxOf_append_of_notMem hu, List.idxOf_append_of_notMem hw, List.idxOf_cons_self,
    List.idxOf_cons_self, Nat.add_right_cancel_iff] at hlen
  obtain ⟨huw, htail⟩ := List.append_inj h hlen
  exact ⟨huw, (List.cons.inj htail).2⟩

theorem past?_append (n s : List α) : past? n (n ++ s) = some s := past?_eq_some_iff.2 rfl

theorem past?_eq_none_iff : past? n s = none ↔ ¬ n <+: s := by
  rw [Option.eq_none_iff_forall_ne_some]
  simp only [ne_eq, past?_eq_some_iff]
  exact ⟨fun h ⟨r, hr⟩ => h r hr.symm, fun h r hr => h ⟨r, hr.symm⟩⟩

theorem cut_append (n s : List α) : cut n (n ++ s) = some ([], s) := by
  cases h : n ++ s with
  | nil =>
    obtain ⟨rfl, rfl⟩ := List.append_eq_nil_iff.1 h
    rfl
  | cons c t => rw [cut, ← h, past?_append]

theorem cut_cons (h : ¬ n <+: c :: s) :
    cut n (c :: s) = (cut n s).map fun (b, r) => (c :: b, r) := by
  rw [cut, past?_eq_none_iff.2 h]

theorem cut_eq_none_iff : cut n s = none ↔ ¬ n <:+: s := by
  induction s with
  | nil => cases n <;> simp [cut]
  | cons c s ih =>
    rw [List.infix_cons_iff, not_or, ← ih]
    by_cases h : n <+: c :: s
    · obtain ⟨t, ht⟩ := h
      simp [← ht, cut_append]
    · simp [cut_cons h, h]

theorem exists_cut_iff : (∃ x, cut n s = some x) ↔ n <:+: s := by
  rw [← Option.ne_none_iff_exists', Ne, cut_eq_none_iff, not_not]

theorem occurs_iff : occurs n s = true ↔ n <:+: s := by
  rw [occurs, Option.isSome_iff_ne_none, Ne, cut_eq_none_iff, not_not]

/-- Nothing occurs before the first occurrence. -/
theorem not_infix_of_cut (hn : n ≠ []) (h : cut n s = some (b, r)) : ¬ n <:+: b := by
  induction s generalizing b with
  | nil =>
    have := eq_append_of_cut h
    simp [hn] at this
  | cons c s ih =>
    by_cases hp : n <+: c :: s
    · obtain ⟨t, ht⟩ := hp
      rw [← ht, cut_append] at h
      cases h
      rwa [List.infix_nil]
    · have hs := eq_append_of_cut h
      rw [cut_cons hp, Option.map_eq_some_iff] at h
      obtain ⟨⟨b', r'⟩, hcut, he⟩ := h
      cases he
      rw [List.infix_cons_iff, not_or]
      exact ⟨fun hb => hp (hs ▸ hb.trans (List.prefix_append _ _)), ih hcut⟩

theorem cut_append_cons (hc : c ∉ n) (hu : ¬ n <:+: u) :
    cut n (u ++ c :: s) = (cut n s).map fun (b, r) => (u ++ c :: b, r) := by
  induction u with
  | nil => exact cut_cons fun h => hu ((prefix_append_cons_iff (u := []) hc).1 h).isInfix
  | cons d u ih =>
    rw [List.infix_cons_iff, not_or] at hu
    have hp : ¬ n <+: d :: (u ++ c :: s) :=
      fun h => hu.1 ((prefix_append_cons_iff (u := d :: u) hc).1 h)
    rw [List.cons_append, cut_cons hp, ih hu.2, Option.map_map]
    rfl

/-- No occurrence starts in what lacks the first element. -/
theorem cut_append_of_notMem (hu : c ∉ u) (s : List α) :
    cut (c :: n) (u ++ s) = (cut (c :: n) s).map fun (b, r) => (u ++ b, r) := by
  induction u with
  | nil => cases h : cut (c :: n) s <;> simp [h]
  | cons d u ih =>
    obtain ⟨hd, hu⟩ := not_or.1 (List.mem_cons.not.1 hu)
    rw [List.cons_append, cut_cons fun h => hd (List.cons_prefix_cons.1 h).1, ih hu, Option.map_map]
    rfl

/-- What starts with an element that it does not have twice is found where it was put. -/
theorem cut_append_self (hc : c ∉ n) (hu : ¬ c :: n <:+: u) (s : List α) :
    cut (c :: n) (u ++ (c :: n ++ s)) = some (u, s) := by
  induction u with
  | nil => exact cut_append _ s
  | cons d u ih =>
    rw [List.infix_cons_iff, not_or] at hu
    have hp : ¬ c :: n <+: d :: (u ++ (c :: n ++ s)) := by
      intro h
      obtain ⟨rfl, htail⟩ := List.cons_prefix_cons.1 h
      exact hu.1 (List.cons_prefix_cons.2 ⟨rfl, (prefix_append_cons_iff hc).1 htail⟩)
    rw [List.cons_append, cut_cons hp, ih hu.2, Option.map_some]

/-- Nothing occurs across an element that it lacks. -/
theorem not_infix_append_cons (hc : c ∉ n) (hu : ¬ n <:+: u) (hv : ¬ n <:+: v) :
    ¬ n <:+: u ++ c :: v := by
  rw [← cut_eq_none_iff, cut_append_cons hc hu, cut_eq_none_iff.2 hv, Option.map_none]

end Mockup.Text
