import Mathlib.Data.List.Forall2
import Mockup.Proofs.Text.Scan

/-! Pieces of a text that do not overlap. The segments of a scan stand in the text in turn, and so
do the values of matches that hold them; what is deleted leaves the rest in its order. -/

namespace Mockup.Text

/-- The pieces stand in the text one after another, each behind the end of the one before it. -/
def InTurn : (pieces : List (List Char)) → (s : List Char) → Prop
  | [], _ => True
  | p :: ps, s => ∃ gap rest, s = gap ++ (p ++ rest) ∧ InTurn ps rest

namespace InTurn

variable {ps qs : List (List Char)} {p s : List Char}

theorem append_left (h : InTurn ps s) (t : List Char) : InTurn ps (t ++ s) := by
  cases ps with
  | nil => trivial
  | cons p ps =>
    obtain ⟨gap, rest, rfl, h⟩ := h
    exact ⟨t ++ gap, rest, by simp, h⟩

/-- Some of the pieces, in the same order. -/
theorem sublist (h : InTurn ps s) (hq : qs.Sublist ps) : InTurn qs s := by
  induction hq generalizing s with
  | slnil => trivial
  | cons p _ ih =>
    obtain ⟨gap, rest, rfl, h⟩ := h
    rw [← List.append_assoc]
    exact (ih h).append_left _
  | cons_cons p _ ih =>
    obtain ⟨gap, rest, rfl, h⟩ := h
    exact ⟨gap, rest, rfl, ih h⟩

/-- A piece of each piece. -/
theorem of_isInfix (hq : List.Forall₂ (· <:+: ·) qs ps) (h : InTurn ps s) : InTurn qs s := by
  induction hq generalizing s with
  | nil => trivial
  | cons hp _ ih =>
    obtain ⟨gap, rest, rfl, h⟩ := h
    obtain ⟨before, after, rfl⟩ := hp
    exact ⟨gap ++ before, after ++ rest, by simp, (ih h).append_left after⟩

/-- Empty pieces stand anywhere. -/
theorem append_empty (h : InTurn ps s) (n : Nat) : InTurn (ps ++ List.replicate n []) s := by
  induction ps generalizing s with
  | nil =>
    induction n with
    | zero => trivial
    | succ n ih => exact ⟨[], s, rfl, ih⟩
  | cons p ps ih =>
    obtain ⟨gap, rest, rfl, h⟩ := h
    exact ⟨gap, rest, rfl, ih h⟩

theorem isInfix (h : InTurn ps s) (hp : p ∈ ps) : p <:+: s := by
  obtain ⟨gap, rest, rfl, -⟩ := h.sublist (List.singleton_sublist.2 hp)
  exact ⟨gap, rest, List.append_assoc gap p rest⟩

end InTurn

namespace Matcher

variable {α : Type} {m : Matcher α} {u v n p s b r : List Char} {a : α}

/-! ### The leftmost match -/

/-- No match starts before the leftmost one. -/
theorem find?_quiet (h : m.find? s = some (b, a, r)) :
    ∃ t, s = b ++ t ∧ m.run t = some (a, r) ∧ m.Quiet b t := by
  induction s generalizing b with
  | nil => cases h
  | cons c s ih =>
    rw [find?] at h
    split at h
    · rename_i hrun
      cases h
      exact ⟨c :: s, rfl, hrun, trivial⟩
    · rename_i hrun
      obtain ⟨⟨b', a', r'⟩, hfind, he⟩ := Option.map_eq_some_iff.1 h
      cases he
      obtain ⟨t, rfl, ht, hquiet⟩ := ih hfind
      exact ⟨t, rfl, ht, hrun, hquiet⟩

theorem quiet_of_find?_none (h : m.find? s = none) : m.Quiet s [] := by
  induction s with
  | nil => trivial
  | cons c s ih =>
    rw [find?] at h
    split at h
    · cases h
    · rename_i hrun
      exact ⟨by rwa [List.append_nil], ih (Option.map_eq_none_iff.1 h)⟩

/-- What is matched somewhere is found. -/
theorem find?_ne_none (h : m.run s ≠ none) (p : List Char) : m.find? (p ++ s) ≠ none := by
  intro hnone
  have hquiet := (quiet_append.1 (quiet_of_find?_none hnone)).2
  cases s with
  | nil => exact h (run_nil m)
  | cons c s => exact h (by simpa using hquiet.1)

/-- A quiet piece does not hold a text that is matched wherever it stands. -/
theorem Quiet.not_isInfix (h : m.Quiet p s) (hn : n ≠ []) (hrun : ∀ t, m.run (n ++ t) ≠ none) :
    ¬ n <:+: p := by
  rintro ⟨u, v, rfl⟩
  rw [List.append_assoc] at h
  have hstart := (quiet_append.1 h).2
  cases n with
  | nil => exact hn rfl
  | cons c n =>
    refine hrun (v ++ s) ?_
    rw [← List.append_assoc]
    exact hstart.1

/-! ### Segments -/

/-- The segments stand in the text in turn, the text before the first match in front of them. -/
theorem segments_inTurn (m : Matcher α) (s : List Char) :
    ∃ t, s = (m.segments s).1 ++ t ∧ InTurn ((m.segments s).2.map (·.2)) t := by
  induction s using m.scan_induction with
  | missed s h =>
    rw [segments_of_none h]
    exact ⟨[], (List.append_nil s).symm, trivial⟩
  | found s b a r h ih =>
    obtain ⟨t, rfl, ht⟩ := m.find?_splits h
    obtain ⟨p, -, rfl⟩ := m.splits ht
    obtain ⟨rest, hr, hrest⟩ := ih
    rw [segments_of_some h]
    exact ⟨p ++ r, rfl, p, rest, by rw [← hr], hrest⟩

/-- A text that is matched wherever it stands is in no segment. -/
theorem segments_free (hn : n ≠ []) (hrun : ∀ t, m.run (n ++ t) ≠ none) (s : List Char) :
    ¬ n <:+: (m.segments s).1 ∧ ∀ x ∈ (m.segments s).2, ¬ n <:+: x.2 := by
  induction s using m.scan_induction with
  | missed s h =>
    rw [segments_of_none h]
    exact ⟨(quiet_of_find?_none h).not_isInfix hn hrun, List.forall_mem_nil _⟩
  | found s b a r h ih =>
    obtain ⟨t, -, -, hquiet⟩ := find?_quiet h
    rw [segments_of_some h]
    exact ⟨hquiet.not_isInfix hn hrun, List.forall_mem_cons.2 ih⟩

/-- Deleting keeps the order of what is left. -/
theorem delete_sublist (m : Matcher α) (s : List Char) : (m.delete s).Sublist s := by
  induction s using m.scan_induction with
  | missed s h =>
    rw [delete_of_none h]
  | found s b a r h ih =>
    obtain ⟨t, rfl, ht⟩ := m.find?_splits h
    rw [delete_of_some h]
    exact (List.Sublist.refl b).append (ih.trans (m.suffix_of_run ht).sublist)

/-! ### Values that are pieces of the text -/

/-- The value of a match is a piece of what it matches. -/
def HoldsValue (m : Matcher (List Char)) : Prop :=
  ∀ s a r, m.run s = some (a, r) → ∃ p q, s = p ++ (a ++ (q ++ r))

theorem upTo_holdsValue (m : Matcher α) (n : List Char) : (m.upTo n).HoldsValue := by
  intro s a r h
  rw [run_upTo, Option.bind_eq_some_iff] at h
  obtain ⟨x, hx, hcut⟩ := h
  obtain ⟨p, -, rfl⟩ := m.splits hx
  exact ⟨p, n, by rw [← eq_append_of_cut hcut]⟩

variable {m : Matcher (List Char)} {a : List Char}

theorem HoldsValue.isInfix (hm : m.HoldsValue) (h : m.run s = some (a, r)) : a <:+: s := by
  obtain ⟨p, q, rfl⟩ := hm s a r h
  exact ⟨p, q ++ r, List.append_assoc p a _⟩

theorem HoldsValue.findAll_inTurn (hm : m.HoldsValue) (s : List Char) : InTurn (m.findAll s) s := by
  induction s using m.scan_induction with
  | missed s h =>
    rw [findAll_of_none h]
    trivial
  | found s b a r h ih =>
    obtain ⟨t, rfl, ht⟩ := m.find?_splits h
    obtain ⟨p, q, rfl⟩ := hm t a r ht
    rw [findAll_of_some h]
    exact ⟨b ++ p, q ++ r, by simp, ih.append_left q⟩

end Matcher

end Mockup.Text
