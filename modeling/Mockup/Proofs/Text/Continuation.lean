import Mockup.Proofs.Text.Leftmost

/-! Texts that go on. What follows a match does not matter to it, and no match starts inside another
one: so the first match stays the first when text is put behind, and a scan goes on behind the
matches that it found before. -/

namespace Mockup.Text

variable {α : Type}

/-- The first occurrence stays the first. -/
theorem cut_append_right {n s b r : List Char} (hn : n ≠ []) (h : cut n s = some (b, r))
    (t : List Char) : cut n (s ++ t) = some (b, r ++ t) := by
  rw [cut_eq_some_iff hn] at h ⊢
  refine ⟨by rw [h.holds]; simp, fun b' r' h' => ?_⟩
  by_contra hlt
  -- an earlier occurrence would end before the first one does
  have hlen := congrArg List.length h.holds
  simp only [List.length_append] at hlen
  obtain ⟨r'', hr⟩ : b' ++ n <+: s := by
    refine List.prefix_of_prefix_length_le ⟨r', ?_⟩ (List.prefix_append s t) ?_
    · rw [h', List.append_assoc]
    · rw [List.length_append]
      omega
  exact hlt (h.least b' r'' (by rw [← hr, List.append_assoc]))

namespace Matcher

variable {m : Matcher α} {n s b r body after : List Char} {a : α}

/-- A match depends on nothing behind it. -/
def IsLocal (m : Matcher α) : Prop :=
  ∀ p r a, m.run (p ++ r) = some (a, r) → ∀ r', m.run (p ++ r') = some (a, r')

theorem isLocal_of_run_iff {m : Matcher Unit} {P : List Char → Prop}
    (h : ∀ s u r, m.run s = some (u, r) ↔ ∃ p, P p ∧ s = p ++ r) : m.IsLocal := by
  intro p r u hp r'
  obtain ⟨q, hq, he⟩ := (h _ _ _).1 hp
  obtain rfl := List.append_cancel_right he
  exact (h _ _ _).2 ⟨p, hq, rfl⟩

/-- The first match stays the first: an earlier one would end before it. -/
theorem IsApart.find?_append_right (hm : m.IsApart) (hl : m.IsLocal)
    (h : m.find? s = some (b, a, r)) (t : List Char) :
    m.find? (s ++ t) = some (b, a, r ++ t) := by
  rw [find?_eq_some_iff] at h ⊢
  obtain ⟨w, rfl, hw⟩ := h.holds
  obtain ⟨p, -, rfl⟩ := m.splits hw
  have hin : m.MatchedIn (b ++ (p ++ r) ++ t) b (a, r ++ t) :=
    ⟨p ++ (r ++ t), by simp, hl p r a hw _⟩
  refine ⟨hin, fun b' x' h' => ?_⟩
  by_contra hlt
  obtain ⟨q, u, -, hrun, hb, -⟩ := hm.starts_behind h' hin (by omega)
  have hin' : m.MatchedIn (b ++ (p ++ r)) b' (x'.1, u ++ (p ++ r)) :=
    ⟨q ++ (u ++ (p ++ r)), by simp [hb], hl q x'.2 x'.1 hrun _⟩
  exact hlt (h.least b' _ hin')

variable (hm : m.IsApart) (hl : m.IsLocal) (ho : m.OpensWith n) (hn : n ≠ [])
include hm hl ho hn

theorem find?_upTo_append_right (h : (m.upTo n).find? s = some (b, body, after))
    (t : List Char) : (m.upTo n).find? (s ++ t) = some (b, body, after ++ t) := by
  obtain ⟨a, r, hfind, hcut⟩ := (find?_upTo_eq_some_iff hm ho).1 h
  exact (find?_upTo_eq_some_iff hm ho).2
    ⟨a, r ++ t, hm.find?_append_right hl hfind t, cut_append_right hn hcut t⟩

/-- What was found is found again, and then perhaps more. -/
theorem findAll_upTo_prefix (s t : List Char) :
    (m.upTo n).findAll s <+: (m.upTo n).findAll (s ++ t) := by
  induction s using (m.upTo n).scan_induction with
  | missed s h =>
    rw [findAll_of_none h]
    exact List.nil_prefix
  | found s b body after h ih =>
    rw [findAll_of_some h, findAll_of_some (find?_upTo_append_right hm hl ho hn h t)]
    exact List.cons_prefix_cons.2 ⟨rfl, ih⟩

end Matcher

end Mockup.Text
