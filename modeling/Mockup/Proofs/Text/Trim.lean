import Mathlib.Data.List.DropRight
import Mathlib.Data.List.Infix
import Mockup.Text.Blank

/-! Trimming. The two ends are trimmed independently, so trimming twice is trimming once and blanks
at the end of a text do not matter. -/

namespace Mockup.Text

theorem trimStart_cons (c : Char) (s : List Char) :
    trimStart (c :: s) = if isBlank c then trimStart s else c :: s := List.dropWhile_cons

theorem trimEnd_cons (c : Char) (s : List Char) :
    trimEnd (c :: s) = if isBlank c ∧ trimEnd s = [] then [] else c :: trimEnd s := by
  simp only [trimEnd, List.reverse_cons, List.dropWhile_append, List.isEmpty_iff,
    List.reverse_eq_nil_iff]
  by_cases h : s.reverse.dropWhile isBlank = []
  · by_cases hc : isBlank c <;> simp [h, hc]
  · simp [h]

theorem trimStart_trimStart (s : List Char) : trimStart (trimStart s) = trimStart s :=
  List.dropWhile_idempotent isBlank s

theorem trimEnd_trimEnd (s : List Char) : trimEnd (trimEnd s) = trimEnd s :=
  List.rdropWhile_idempotent isBlank s

theorem trimStart_trimEnd (s : List Char) : trimStart (trimEnd s) = trimEnd (trimStart s) := by
  induction s with
  | nil => rfl
  | cons c s ih =>
    rw [trimEnd_cons, trimStart_cons]
    by_cases hc : isBlank c
    · by_cases hs : trimEnd s = []
      · rw [if_pos ⟨hc, hs⟩, if_pos hc, ← ih, hs]
      · rw [if_neg fun h => hs h.2, if_pos hc, trimStart_cons, if_pos hc, ih]
    · rw [if_neg fun h => hc h.1, if_neg hc, trimStart_cons, if_neg hc, trimEnd_cons,
        if_neg fun h => hc h.1]

theorem trim_trim (s : List Char) : trim (trim s) = trim s := by
  unfold trim
  rw [trimStart_trimEnd, trimEnd_trimEnd, trimStart_trimStart]

theorem trimEnd_append_blank (s : List Char) {t : List Char} (ht : ∀ c ∈ t, isBlank c) :
    trimEnd (s ++ t) = trimEnd s := by
  unfold trimEnd
  rw [List.reverse_append, List.dropWhile_append_of_pos fun c hc => ht c (List.mem_reverse.1 hc)]

theorem trim_append_blank (s : List Char) {t : List Char} (ht : ∀ c ∈ t, isBlank c) :
    trim (s ++ t) = trim s := by
  unfold trim
  rw [← trimStart_trimEnd, trimEnd_append_blank s ht, trimStart_trimEnd]

theorem trim_append_newline (s : List Char) : trim (s ++ ['\n']) = trim s :=
  trim_append_blank s (List.forall_mem_singleton.2 rfl)

theorem trim_isInfix (s : List Char) : trim s <:+: s :=
  (List.rdropWhile_prefix isBlank (trimStart s)).isInfix.trans
    (List.dropWhile_suffix isBlank).isInfix

/-- Nothing is left of blanks, and of nothing else. -/
theorem trim_eq_nil_iff {s : List Char} : trim s = [] ↔ ∀ c ∈ s, isBlank c := by
  unfold trim
  rw [← trimStart_trimEnd, trimStart, List.dropWhile_eq_nil_iff]
  induction s with
  | nil => simp [trimEnd]
  | cons c s ih =>
    rw [trimEnd_cons, List.forall_mem_cons, ← ih]
    split
    · rename_i h
      simp [h.1, h.2]
    · rw [List.forall_mem_cons]

/-! ### Words -/

variable {w s : List Char}

/-- A word without blanks is not lost in trimming. -/
theorem infix_trimStart_iff (hne : w ≠ []) (hw : ∀ c ∈ w, ¬ isBlank c) :
    w <:+: trimStart s ↔ w <:+: s := by
  induction s with
  | nil => rfl
  | cons c s ih =>
    rw [trimStart_cons]
    split
    · rename_i hc
      have hstart : ¬ w <+: c :: s := by
        rintro ⟨t, ht⟩
        obtain ⟨d, w, rfl⟩ := List.exists_cons_of_ne_nil hne
        cases ht
        exact hw c List.mem_cons_self hc
      rw [ih, List.infix_cons_iff, or_iff_right hstart]
    · rfl

theorem infix_trimEnd_iff (hne : w ≠ []) (hw : ∀ c ∈ w, ¬ isBlank c) :
    w <:+: trimEnd s ↔ w <:+: s := by
  have hne' : w.reverse ≠ [] := by simpa using hne
  have hw' : ∀ c ∈ w.reverse, ¬ isBlank c := by simpa using hw
  rw [← List.reverse_infix, trimEnd, List.reverse_reverse]
  exact (infix_trimStart_iff hne' hw').trans List.reverse_infix

theorem infix_trim_iff (hne : w ≠ []) (hw : ∀ c ∈ w, ¬ isBlank c) :
    w <:+: trim s ↔ w <:+: s :=
  (infix_trimEnd_iff hne hw).trans (infix_trimStart_iff hne hw)

theorem mem_trim_iff {c : Char} (hc : ¬ isBlank c) : c ∈ trim s ↔ c ∈ s := by
  have h := infix_trim_iff (s := s) (List.cons_ne_nil c []) (List.forall_mem_singleton.2 hc)
  simpa only [List.singleton_infix_iff] using h

end Mockup.Text
