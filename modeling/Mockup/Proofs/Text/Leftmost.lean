import Mockup.Proofs.Text.Piece

/-! The leftmost place. What a scan and a cut find is the first of all places that would do. When
every match opens with the text that ends it, an open match that is never ended has nothing behind
it that could be matched instead. -/

namespace Mockup.Text

variable {α β : Type} {P : List α → β → Prop} {b b' : List α} {x x' : β}

/-- What follows `b` is as wanted, and nowhere is it so after a shorter beginning. -/
structure IsFirst (P : List α → β → Prop) (b : List α) (x : β) : Prop where
  holds : P b x
  least : ∀ b' x', P b' x' → b.length ≤ b'.length

theorem IsFirst.length_eq (h : IsFirst P b x) (h' : IsFirst P b' x') : b.length = b'.length :=
  Nat.le_antisymm (h.least b' x' h'.holds) (h'.least b x h.holds)

namespace Matcher

variable {m : Matcher α} {n s b p r body : List Char} {a : α}

/-- A match of `m` stands between `b` and what follows it. -/
def MatchedIn (m : Matcher α) (s b : List Char) (x : α × List Char) : Prop :=
  ∃ t, s = b ++ t ∧ m.run t = some x

theorem Quiet.run_eq_none {q : List Char} (h : m.Quiet (p ++ q) s) (hq : q ≠ []) :
    m.run (q ++ s) = none := by
  have hq' := (quiet_append.1 h).2
  cases q with
  | nil => exact absurd rfl hq
  | cons c q => exact hq'.1

/-- What is matched in a text with a quiet beginning is matched behind that beginning. -/
theorem Quiet.matchedIn_behind (h : m.Quiet p s) {x : α × List Char}
    (hx : m.MatchedIn (p ++ s) b x) : ∃ b', b = p ++ b' ∧ m.MatchedIn s b' x := by
  obtain ⟨t, hs, ht⟩ := hx
  rcases List.append_eq_append_iff.1 hs with ⟨u, rfl, hu⟩ | ⟨u, rfl, rfl⟩
  · exact ⟨u, rfl, t, hu, ht⟩
  · -- otherwise it would start in the quiet piece
    by_cases hne : u = []
    · subst hne
      exact ⟨[], by simp, s, rfl, ht⟩
    · rw [h.run_eq_none hne] at ht
      cases ht

theorem isFirst_of_find? (h : m.find? s = some (b, a, r)) : IsFirst (m.MatchedIn s) b (a, r) := by
  obtain ⟨t, rfl, ht, hquiet⟩ := find?_quiet h
  refine ⟨⟨t, rfl, ht⟩, fun b' x' h' => ?_⟩
  obtain ⟨u, rfl, -⟩ := hquiet.matchedIn_behind h'
  rw [List.length_append]
  exact Nat.le_add_right _ _

theorem matchedIn_literal_iff {hn : n ≠ []} :
    (literal n hn).MatchedIn s b ((), r) ↔ s = b ++ (n ++ r) := by
  simp [MatchedIn, past?_eq_some_iff]

/-- A search finds the first match. -/
theorem find?_eq_some_iff :
    m.find? s = some (b, a, r) ↔ IsFirst (m.MatchedIn s) b (a, r) := by
  refine ⟨isFirst_of_find?, fun h => ?_⟩
  obtain ⟨t, rfl, ht⟩ := h.holds
  obtain ⟨⟨b', a', r'⟩, hfind⟩ :=
    Option.ne_none_iff_exists'.1 (m.find?_ne_none (Option.ne_none_iff_exists'.2 ⟨_, ht⟩) b)
  have h' := isFirst_of_find? hfind
  obtain ⟨t', hs, ht'⟩ := h'.holds
  obtain ⟨rfl, rfl⟩ := List.append_inj hs (h.length_eq h')
  rw [ht] at ht'
  cases ht'
  exact hfind

theorem find?_eq_none_iff : m.find? s = none ↔ ∀ b x, ¬ m.MatchedIn s b x := by
  constructor
  · rintro h b x ⟨t, rfl, ht⟩
    exact m.find?_ne_none (Option.ne_none_iff_exists'.2 ⟨x, ht⟩) b h
  · intro h
    cases hfind : m.find? s with
    | none => rfl
    | some x =>
      obtain ⟨b, a, r⟩ := x
      exact absurd (isFirst_of_find? hfind).holds (h b (a, r))

end Matcher

/-- A cut is made at the first occurrence. -/
theorem cut_eq_some_iff {n s b r : List Char} (hn : n ≠ []) :
    cut n s = some (b, r) ↔ IsFirst (fun b r => s = b ++ (n ++ r)) b r := by
  have hfind : cut n s = some (b, r) ↔ (Matcher.literal n hn).find? s = some (b, (), r) := by
    rw [Matcher.find?_literal]
    cases cut n s <;> simp [Prod.ext_iff]
  rw [hfind, Matcher.find?_eq_some_iff]
  refine ⟨fun h => ⟨Matcher.matchedIn_literal_iff.1 h.holds, fun b' r' h' => ?_⟩,
    fun h => ⟨Matcher.matchedIn_literal_iff.2 h.holds, fun b' x' h' => ?_⟩⟩
  · exact h.least b' ((), r') (Matcher.matchedIn_literal_iff.2 h')
  · exact h.least b' x'.2 (Matcher.matchedIn_literal_iff.1 h')

namespace Matcher

variable {m : Matcher α} {n s b r body after : List Char} {a : α}

/-- No match starts inside a match. -/
def IsApart (m : Matcher α) : Prop :=
  ∀ s a r, m.run s = some (a, r) → ∃ c p, s = c :: (p ++ r) ∧ m.Quiet p r

theorem OpensWith.prefix_of_run (ho : m.OpensWith n) {t : List Char} {x : α × List Char}
    (h : m.run t = some x) : n <+: t := by
  by_contra hn
  rw [ho t hn] at h
  cases h

/-- Of two matches the second starts behind the end of the first. -/
theorem IsApart.starts_behind (hm : m.IsApart) {b' : List Char} {x x' : α × List Char}
    (h : m.MatchedIn s b x) (h' : m.MatchedIn s b' x') (hlt : b.length < b'.length) :
    ∃ p u t, m.run (p ++ x.2) = some x ∧ b' = b ++ (p ++ u) ∧ x.2 = u ++ t ∧
      m.run t = some x' := by
  obtain ⟨t, rfl, ht⟩ := h
  obtain ⟨t', hs, ht'⟩ := h'
  obtain ⟨c, p, rfl, hquiet⟩ := hm t x.1 x.2 ht
  obtain ⟨q, rfl⟩ : b <+: b' :=
    List.prefix_of_prefix_length_le (List.prefix_append b _) ⟨t', hs.symm⟩ (by omega)
  rw [List.append_assoc, List.append_cancel_left_eq] at hs
  obtain ⟨d, q, rfl⟩ := List.exists_cons_of_ne_nil (l := q) (by rintro rfl; simp at hlt)
  rw [List.cons_append, List.cons.injEq] at hs
  obtain ⟨rfl, hs⟩ := hs
  obtain ⟨u, rfl, t, hu, ht'⟩ := hquiet.matchedIn_behind ⟨t', hs, ht'⟩
  exact ⟨c :: p, u, t, ht, by simp, hu, ht'⟩

/-- Of two matches the second opens behind the end of the first. -/
theorem IsApart.opens_behind (hm : m.IsApart) (ho : m.OpensWith n) {b' : List Char}
    {x x' : α × List Char} (h : m.MatchedIn s b x) (h' : m.MatchedIn s b' x')
    (hlt : b.length < b'.length) : n <:+: x.2 := by
  obtain ⟨p, u, t, -, -, hx, ht⟩ := hm.starts_behind h h' hlt
  rw [hx]
  exact (ho.prefix_of_run ht).isInfix.trans (List.suffix_append u t).isInfix

/-- Up to `n` the first match of all is found, or none. -/
theorem find?_upTo_eq_some_iff (hm : m.IsApart) (ho : m.OpensWith n) :
    (m.upTo n).find? s = some (b, body, after) ↔
      ∃ a r, m.find? s = some (b, a, r) ∧ cut n r = some (body, after) := by
  have hupTo (b : List Char) (x : List Char × List Char) :
      (m.upTo n).MatchedIn s b x ↔ ∃ y, m.MatchedIn s b y ∧ cut n y.2 = some x := by
    simp only [MatchedIn, run_upTo, Option.bind_eq_some_iff]
    constructor
    · rintro ⟨t, hs, y, hy, hx⟩
      exact ⟨y, ⟨t, hs, hy⟩, hx⟩
    · rintro ⟨y, ⟨t, hs, hy⟩, hx⟩
      exact ⟨t, hs, y, hy, hx⟩
  rw [find?_eq_some_iff]
  constructor
  · intro h
    obtain ⟨⟨a, r⟩, hin, hcut⟩ := (hupTo _ _).1 h.holds
    refine ⟨a, r, find?_eq_some_iff.2 ⟨hin, fun b' x' h' => ?_⟩, hcut⟩
    by_contra hlt
    have hinfix := hm.opens_behind ho h' hin (by omega)
    obtain ⟨y, hy⟩ := exists_cut_iff.2 hinfix
    exact hlt (h.least b' y ((hupTo _ _).2 ⟨x', h', hy⟩))
  · rintro ⟨a, r, hfind, hcut⟩
    have h := find?_eq_some_iff.1 hfind
    refine ⟨(hupTo _ _).2 ⟨(a, r), h.holds, hcut⟩, fun b' x' h' => ?_⟩
    obtain ⟨y, hy, -⟩ := (hupTo _ _).1 h'
    exact h.least b' y hy

end Matcher

end Mockup.Text
