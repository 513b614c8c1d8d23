import Mockup.Text.Matcher
import Mockup.Proofs.Text.Occurrence

/-! Scanning with a matcher. The scan passes over a piece in which no match starts and stops at the
first place where one does. A matcher that opens with a fixed text finds no match where that text
does not occur. -/

namespace Mockup.Text.Matcher

variable {α β : Type} {m : Matcher α} {n p q s b r : List Char} {a : α} {c : Char}

/-- No match starts in a piece when `s` follows it. -/
def Quiet (m : Matcher α) : (piece s : List Char) → Prop
  | [], _ => True
  | c :: b, s => m.run (c :: (b ++ s)) = none ∧ m.Quiet b s

theorem quiet_append : m.Quiet (p ++ q) s ↔ m.Quiet p (q ++ s) ∧ m.Quiet q s := by
  induction p with
  | nil => simp [Quiet]
  | cons c p ih => simp only [List.cons_append, Quiet, ih, List.append_assoc, and_assoc]

theorem Quiet.orElse {m' : Matcher α} (h : m.Quiet p s) (h' : m'.Quiet p s) :
    (m.orElse m').Quiet p s := by
  induction p with
  | nil => trivial
  | cons c p ih =>
    refine ⟨?_, ih h.2 h'.2⟩
    rw [run_orElse, h.1, h'.1, Option.or_none]

theorem Quiet.map (h : m.Quiet p s) (f : α → β) : (m.map f).Quiet p s := by
  induction p with
  | nil => trivial
  | cons c p ih => exact ⟨by rw [run_map, h.1, Option.map_none], ih h.2⟩

theorem Quiet.andThen (h : m.Quiet p s) {f : List Char → Option (β × List Char)}
    (hf : ∀ s b r, f s = some (b, r) → r <:+ s) : (m.andThen f hf).Quiet p s := by
  induction p with
  | nil => trivial
  | cons c p ih => exact ⟨by rw [run_andThen, h.1, Option.bind_none], ih h.2⟩

theorem Quiet.upTo (h : m.Quiet p s) (needle : List Char) : (m.upTo needle).Quiet p s :=
  h.andThen _

theorem run_nil (m : Matcher α) : m.run [] = none := by
  cases h : m.run [] with
  | none => rfl
  | some x =>
    obtain ⟨p, hp, he⟩ := m.splits h
    simp [hp] at he

/-! ### The first match -/

theorem find?_of_run (h : m.run s = some (a, r)) : m.find? s = some ([], a, r) := by
  cases s with
  | nil => rw [run_nil] at h; cases h
  | cons c s => rw [find?, h]

theorem find?_append (h : m.Quiet p s) :
    m.find? (p ++ s) = (m.find? s).map fun (b, a, r) => (p ++ b, a, r) := by
  induction p with
  | nil => simp
  | cons c p ih =>
    rw [List.cons_append, find?, h.1, ih h.2, Option.map_map]
    rfl

theorem find?_of_quiet (h : m.Quiet s []) : m.find? s = none := by
  simpa [find?] using find?_append h

/-- Looking for a text is cutting at it. -/
theorem find?_literal (hn : n ≠ []) (s : List Char) :
    (literal n hn).find? s = (cut n s).map fun x => (x.1, (), x.2) := by
  induction s with
  | nil => simp [find?, cut, hn]
  | cons c s ih =>
    rw [find?, cut, run_literal]
    cases past? n (c :: s) with
    | some r => rfl
    | none =>
      simp only [Option.map_none]
      rw [ih, Option.map_map, Option.map_map]
      rfl

/-! ### All matches -/

theorem segments_of_none (h : m.find? s = none) : m.segments s = (s, []) := by
  rw [segments]
  split
  · rfl
  · rename_i hs
    rw [h] at hs
    cases hs

theorem segments_of_some (h : m.find? s = some (b, a, r)) :
    m.segments s = (b, (a, (m.segments r).1) :: (m.segments r).2) := by
  rw [segments]
  split
  · rename_i hs
    rw [h] at hs
    cases hs
  · rename_i hs
    rw [h] at hs
    cases hs
    rfl

theorem segments_of_run (h : m.run s = some (a, r)) :
    m.segments s = ([], (a, (m.segments r).1) :: (m.segments r).2) :=
  segments_of_some (find?_of_run h)

theorem segments_append (h : m.Quiet p s) :
    m.segments (p ++ s) = (p ++ (m.segments s).1, (m.segments s).2) := by
  cases hs : m.find? s with
  | none =>
    rw [segments_of_none hs, segments_of_none (by rw [find?_append h, hs, Option.map_none])]
  | some x =>
    obtain ⟨b, a, r⟩ := x
    rw [segments_of_some hs, segments_of_some (by rw [find?_append h, hs, Option.map_some])]

theorem findAll_of_none (h : m.find? s = none) : m.findAll s = [] := by
  rw [findAll, segments_of_none h, List.map_nil]

theorem findAll_of_some (h : m.find? s = some (b, a, r)) : m.findAll s = a :: m.findAll r := by
  rw [findAll, segments_of_some h, List.map_cons, findAll]

theorem findAll_of_run (h : m.run s = some (a, r)) : m.findAll s = a :: m.findAll r :=
  findAll_of_some (find?_of_run h)

theorem findAll_append (h : m.Quiet p s) : m.findAll (p ++ s) = m.findAll s := by
  cases hs : m.find? s with
  | none => rw [findAll_of_none hs, findAll_of_none (by rw [find?_append h, hs, Option.map_none])]
  | some x =>
    obtain ⟨b, a, r⟩ := x
    rw [findAll_of_some hs, findAll_of_some (by rw [find?_append h, hs, Option.map_some])]

theorem delete_of_none (h : m.find? s = none) : m.delete s = s := by
  rw [delete, segments_of_none h, List.flatMap_nil, List.append_nil]

theorem delete_of_some (h : m.find? s = some (b, a, r)) : m.delete s = b ++ m.delete r := by
  rw [delete, segments_of_some h, List.flatMap_cons, delete]

/-- Induction along a scan, from each match to what follows it. -/
@[elab_as_elim] theorem scan_induction (m : Matcher α) {motive : List Char → Prop}
    (missed : ∀ s, m.find? s = none → motive s)
    (found : ∀ s b a r, m.find? s = some (b, a, r) → motive r → motive s) (s : List Char) :
    motive s := by
  cases h : m.find? s with
  | none => exact missed s h
  | some x => exact found s x.1 x.2.1 x.2.2 h (scan_induction m missed found x.2.2)
termination_by s.length
decreasing_by exact m.find?_shorter h

/-- What holds of the value of every match holds of all the values found. -/
theorem forall_mem_findAll {P : α → Prop} (h : ∀ s a r, m.run s = some (a, r) → P a)
    (s : List Char) : ∀ a ∈ m.findAll s, P a := by
  induction s using m.scan_induction with
  | missed s hs =>
    intro a ha
    rw [findAll_of_none hs] at ha
    cases ha
  | found s b a r hs ih =>
    obtain ⟨t, -, ht⟩ := m.find?_splits hs
    rw [findAll_of_some hs, List.forall_mem_cons]
    exact ⟨h t a r ht, ih⟩

/-- No character is new after a deletion. -/
theorem mem_of_mem_delete (m : Matcher α) (h : c ∈ m.delete s) : c ∈ s := by
  induction s using m.scan_induction with
  | missed s hs => rwa [delete_of_none hs] at h
  | found s b a r hs ih =>
    obtain ⟨t, rfl, ht⟩ := m.find?_splits hs
    rw [delete_of_some hs, List.mem_append] at h
    rcases h with h | h
    · exact List.mem_append_left t h
    · exact List.mem_append_right b ((m.suffix_of_run ht).subset (ih h))

/-- The value between a match and the next `n` does not hold `n`. -/
theorem not_infix_of_run_upTo (hn : n ≠ []) (h : (m.upTo n).run s = some (b, r)) : ¬ n <:+: b := by
  obtain ⟨x, -, hx⟩ := Option.bind_eq_some_iff.1 h
  exact not_infix_of_cut hn hx

/-! ### Matchers that open with a text -/

/-- Every match starts with `n`. -/
def OpensWith (m : Matcher α) (n : List Char) : Prop := ∀ s, ¬ n <+: s → m.run s = none

theorem literal_opensWith (hn : n ≠ []) : (literal n hn).OpensWith n := by
  intro s hs
  rw [run_literal, past?_eq_none_iff.2 hs, Option.map_none]

theorem OpensWith.andThen (h : m.OpensWith n) {f : List Char → Option (β × List Char)}
    (hf : ∀ s b r, f s = some (b, r) → r <:+ s) : (m.andThen f hf).OpensWith n := by
  intro s hs
  rw [run_andThen, h s hs, Option.bind_none]

theorem OpensWith.upTo (h : m.OpensWith n) (needle : List Char) : (m.upTo needle).OpensWith n :=
  h.andThen _

theorem OpensWith.quiet (h : m.OpensWith n) (hp : ¬ n <:+: p) (hs : ∀ c ∈ s.head?, c ∉ n) :
    m.Quiet p s := by
  induction p with
  | nil => trivial
  | cons c p ih =>
    rw [List.infix_cons_iff, not_or] at hp
    exact ⟨h _ fun hn => hp.1 (prefix_of_prefix_append (u := c :: p) hs hn), ih hp.2⟩

/-- A piece that ends with an element outside `n` is quiet, whatever follows. -/
theorem OpensWith.quiet_concat (h : m.OpensWith n) (hp : ¬ n <:+: p) (hc : c ∉ n) (s : List Char) :
    m.Quiet (p ++ [c]) s := by
  refine quiet_append.2 ⟨h.quiet hp fun d hd => ?_, h _ fun hn => ?_, trivial⟩
  · cases hd
    exact hc
  · have := (prefix_append_cons_iff (u := []) hc).1 hn
    exact hp (List.prefix_nil.1 this ▸ List.nil_infix)

end Mockup.Text.Matcher
