import Mockup.Text.Cut

/-! Matchers: recognisers of a nonempty piece at the start of a text. A matcher is looked for from
left to right; the matches found do not overlap, and they cut the text into segments. -/

namespace Mockup.Text

/-- Recognises a nonempty piece at the start of a text and returns its value and what follows. -/
structure Matcher (α : Type) where
  run : List Char → Option (α × List Char)
  splits : ∀ {s a r}, run s = some (a, r) → ∃ p, p ≠ [] ∧ s = p ++ r

namespace Matcher

variable {α β : Type}

theorem suffix_of_run (m : Matcher α) {s a r} (h : m.run s = some (a, r)) : r <:+ s := by
  obtain ⟨p, -, rfl⟩ := m.splits h
  exact List.suffix_append p r

/-- The text `p` itself. -/
def literal (p : List Char) (hp : p ≠ []) : Matcher Unit where
  run s := (past? p s).map ((), ·)
  splits := by
    intro s a r h
    simp only [Option.map_eq_some_iff, Prod.mk.injEq] at h
    obtain ⟨r', h, -, rfl⟩ := h
    exact ⟨p, hp, past?_eq_some_iff.1 h⟩

@[simp] theorem run_literal (p : List Char) (hp : p ≠ []) (s : List Char) :
    (literal p hp).run s = (past? p s).map ((), ·) := rfl

/-- `m`, then a reader of what follows. -/
def andThen (m : Matcher α) (f : List Char → Option (β × List Char))
    (hf : ∀ s b r, f s = some (b, r) → r <:+ s) : Matcher β where
  run s := (m.run s).bind fun (_, r) => f r
  splits := by
    intro s b r h
    simp only [Option.bind_eq_some_iff, Prod.exists] at h
    obtain ⟨a, t, h₁, h₂⟩ := h
    obtain ⟨p, hp, rfl⟩ := m.splits h₁
    obtain ⟨q, rfl⟩ := hf _ _ _ h₂
    exact ⟨p ++ q, by simp [hp], (List.append_assoc p q r).symm⟩

@[simp] theorem run_andThen (m : Matcher α) {f : List Char → Option (β × List Char)}
    {hf : ∀ s b r, f s = some (b, r) → r <:+ s} (s : List Char) :
    (m.andThen f hf).run s = (m.run s).bind fun x => f x.2 := rfl

/-- `m`, then everything up to and including the next `needle`; the value is what lies between. -/
def upTo (m : Matcher α) (needle : List Char) : Matcher (List Char) :=
  m.andThen (cut needle) fun _ _ _ => suffix_of_cut

@[simp] theorem run_upTo (m : Matcher α) (needle s : List Char) :
    (m.upTo needle).run s = (m.run s).bind fun x => cut needle x.2 := rfl

/-- The first of two matchers that applies. -/
def orElse (m n : Matcher α) : Matcher α where
  run s := (m.run s).or (n.run s)
  splits := by
    intro s a r h
    rw [Option.or_eq_some_iff] at h
    rcases h with h | ⟨-, h⟩
    · exact m.splits h
    · exact n.splits h

@[simp] theorem run_orElse (m n : Matcher α) (s : List Char) :
    (m.orElse n).run s = (m.run s).or (n.run s) := rfl

def map (f : α → β) (m : Matcher α) : Matcher β where
  run s := (m.run s).map fun (a, r) => (f a, r)
  splits := by
    intro s b r h
    simp only [Option.map_eq_some_iff, Prod.exists, Prod.mk.injEq] at h
    obtain ⟨a, t, h, -, rfl⟩ := h
    exact m.splits h

@[simp] theorem run_map (f : α → β) (m : Matcher α) (s : List Char) :
    (m.map f).run s = (m.run s).map fun x => (f x.1, x.2) := rfl

/-- The leftmost match: what stands before it, its value, what follows it. -/
def find? (m : Matcher α) : List Char → Option (List Char × α × List Char)
  | [] => none
  | c :: s =>
    match m.run (c :: s) with
    | some (a, r) => some ([], a, r)
    | none => (m.find? s).map fun (b, a, r) => (c :: b, a, r)

theorem find?_splits (m : Matcher α) {s b a r} (h : m.find? s = some (b, a, r)) :
    ∃ t, s = b ++ t ∧ m.run t = some (a, r) := by
  induction s generalizing b with
  | nil => simp [find?] at h
  | cons c s ih =>
    simp only [find?] at h
    split at h
    · rename_i hr
      cases h
      exact ⟨c :: s, rfl, hr⟩
    · simp only [Option.map_eq_some_iff, Prod.exists, Prod.mk.injEq] at h
      obtain ⟨b', a', r', h, rfl, rfl, rfl⟩ := h
      obtain ⟨t, rfl, ht⟩ := ih h
      exact ⟨t, rfl, ht⟩

theorem find?_shorter (m : Matcher α) {s b a r} (h : m.find? s = some (b, a, r)) :
    r.length < s.length := by
  obtain ⟨t, rfl, ht⟩ := m.find?_splits h
  obtain ⟨p, hp, rfl⟩ := m.splits ht
  have := List.length_pos_iff.2 hp
  simp only [List.length_append]
  omega

/-- The text before the first match, and each match with the text from it to the next one. -/
def segments (m : Matcher α) (s : List Char) : List Char × List (α × List Char) :=
  match h : m.find? s with
  | none => (s, [])
  | some (b, a, r) =>
    have : r.length < s.length := m.find?_shorter h
    let (gap, rest) := m.segments r
    (b, (a, gap) :: rest)
termination_by s.length

/-- The values of all matches, in order. -/
def findAll (m : Matcher α) (s : List Char) : List α := (m.segments s).2.map (·.1)

/-- The text without its matches. -/
def delete (m : Matcher α) (s : List Char) : List Char :=
  (m.segments s).1 ++ (m.segments s).2.flatMap (·.2)

end Matcher

end Mockup.Text
