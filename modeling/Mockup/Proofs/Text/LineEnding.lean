import Mockup.Proofs.Text.Scan
import Mockup.Proofs.Text.Trim

/-! Lines that end with CR LF instead of LF. Trimming, cutting and matching treat the two alike, as
long as what is looked for holds no part of a line end. -/

namespace Mockup.Text

/-- Every LF is written CR LF. -/
def crlf (s : List Char) : List Char := s.flatMap fun c => if c = '\n' then ['\r', '\n'] else [c]

/-- There is something, and it holds no part of a line end. -/
def Plain (n : List Char) : Prop := n ≠ [] ∧ '\r' ∉ n ∧ '\n' ∉ n

instance (n : List Char) : Decidable (Plain n) := inferInstanceAs (Decidable (_ ∧ _ ∧ _))

variable {s n : List Char} {c : Char}

@[simp] theorem crlf_nil : crlf [] = [] := rfl

theorem crlf_newline (s : List Char) : crlf ('\n' :: s) = '\r' :: '\n' :: crlf s := rfl

theorem crlf_cons (hc : c ≠ '\n') (s : List Char) : crlf (c :: s) = c :: crlf s := by
  rw [crlf, List.flatMap_cons, if_neg hc]
  rfl

theorem crlf_append (s t : List Char) : crlf (s ++ t) = crlf s ++ crlf t := List.flatMap_append

theorem crlf_eq_nil_iff : crlf s = [] ↔ s = [] := by
  cases s with
  | nil => simp
  | cons c s =>
    by_cases hc : c = '\n'
    · simp [hc, crlf_newline]
    · simp [crlf_cons hc]

theorem mem_crlf_iff (hc : c ≠ '\r') : c ∈ crlf s ↔ c ∈ s := by
  induction s with
  | nil => rfl
  | cons d s ih =>
    by_cases hd : d = '\n'
    · rw [hd, crlf_newline, List.mem_cons, List.mem_cons, List.mem_cons, ih, or_iff_right hc]
    · rw [crlf_cons hd, List.mem_cons, List.mem_cons, ih]

/-! ### Trimming -/

theorem trimStart_crlf (s : List Char) : trimStart (crlf s) = crlf (trimStart s) := by
  induction s with
  | nil => rfl
  | cons c s ih =>
    by_cases hc : c = '\n'
    · subst hc
      exact ih
    · rw [crlf_cons hc, trimStart_cons, trimStart_cons, ih]
      split
      · rfl
      · rw [crlf_cons hc]

theorem trimEnd_crlf (s : List Char) : trimEnd (crlf s) = crlf (trimEnd s) := by
  induction s with
  | nil => rfl
  | cons c s ih =>
    by_cases hc : c = '\n'
    · subst hc
      rw [crlf_newline, trimEnd_cons, trimEnd_cons, trimEnd_cons, ih]
      by_cases hs : trimEnd s = []
      · simp [hs, isBlank]
      · simp [hs, crlf_eq_nil_iff, crlf_newline]
    · rw [crlf_cons hc, trimEnd_cons, trimEnd_cons, ih]
      simp only [crlf_eq_nil_iff]
      split
      · rfl
      · rw [crlf_cons hc]

theorem trim_crlf (s : List Char) : trim (crlf s) = crlf (trim s) := by
  rw [trim, trimStart_crlf, trimEnd_crlf, trim]

/-! ### Readers -/

theorem past?_crlf (hn : Plain n) (s : List Char) : past? n (crlf s) = (past? n s).map crlf := by
  obtain ⟨-, hr, hn⟩ := hn
  induction n generalizing s with
  | nil => rfl
  | cons d n ih =>
    rw [List.mem_cons, not_or] at hr hn
    cases s with
    | nil => rfl
    | cons c s =>
      by_cases hc : c = '\n'
      · subst hc
        simp [crlf_newline, past?, Ne.symm hr.1, Ne.symm hn.1]
      · rw [crlf_cons hc, past?, past?]
        split
        · exact ih s hr.2 hn.2
        · rfl

/-- Reads the same whichever way the lines end. What follows is the same text, and `g` is what
becomes of the value. -/
def LineBlind {α : Type} (f : List Char → Option (α × List Char)) (g : α → α) : Prop :=
  ∀ s, '\r' ∉ s → f (crlf s) = (f s).map fun x => (g x.1, crlf x.2)

namespace Matcher

variable {α β : Type} {m : Matcher α} {g : α → α}

/-- A matcher that is blind to how lines end, and with which no match starts in a line end. -/
structure Blind (m : Matcher α) (g : α → α) : Prop where
  run_end : ∀ c s, c = '\r' ∨ c = '\n' → m.run (c :: s) = none
  run_crlf : LineBlind m.run g

theorem literal_blind (hn : Plain n) (h : n ≠ []) : (literal n h).Blind id where
  run_end c s hc := by
    have hcn : c ∉ n := by
      rcases hc with rfl | rfl
      · exact hn.2.1
      · exact hn.2.2
    refine literal_opensWith h _ fun hp => h ?_
    exact List.prefix_nil.1 ((prefix_append_cons_iff (u := []) hcn).1 hp)
  run_crlf s _ := by
    rw [run_literal, run_literal, past?_crlf hn, Option.map_map, Option.map_map]
    rfl

theorem Blind.andThen (hm : m.Blind g) {f : List Char → Option (β × List Char)} {k : β → β}
    (hf : ∀ s b r, f s = some (b, r) → r <:+ s) (hblind : LineBlind f k) :
    (m.andThen f hf).Blind k where
  run_end c s hc := by rw [run_andThen, hm.run_end c s hc, Option.bind_none]
  run_crlf s hs := by
    rw [run_andThen, run_andThen, hm.run_crlf s hs]
    cases h : m.run s with
    | none => rfl
    | some x =>
      have hx : '\r' ∉ x.2 := fun hx => hs ((m.suffix_of_run h).subset hx)
      exact hblind x.2 hx

theorem Blind.orElse {n : Matcher α} (hm : m.Blind g) (hn : n.Blind g) : (m.orElse n).Blind g where
  run_end c s hc := by rw [run_orElse, hm.run_end c s hc, hn.run_end c s hc, Option.or_none]
  run_crlf s hs := by
    rw [run_orElse, run_orElse, hm.run_crlf s hs, hn.run_crlf s hs, Option.map_or]

theorem Blind.map (hm : m.Blind g) {k : β → β} {f : α → β} (hf : ∀ a, f (g a) = k (f a)) :
    (m.map f).Blind k where
  run_end c s hc := by rw [run_map, hm.run_end c s hc, Option.map_none]
  run_crlf s hs := by
    rw [run_map, run_map, hm.run_crlf s hs, Option.map_map, Option.map_map]
    congr 1
    funext x
    simp [hf]

/-! ### Scanning -/

theorem Blind.find?_crlf (hm : m.Blind g) (hs : '\r' ∉ s) :
    m.find? (crlf s) = (m.find? s).map fun x => (crlf x.1, g x.2.1, crlf x.2.2) := by
  induction s with
  | nil => rfl
  | cons c s ih =>
    have hs' : '\r' ∉ s := fun h => hs (List.mem_cons_of_mem c h)
    by_cases hc : c = '\n'
    · subst hc
      rw [crlf_newline, find?, hm.run_end _ _ (.inl rfl), find?, hm.run_end _ _ (.inr rfl), ih hs',
        find?, hm.run_end _ _ (.inr rfl), Option.map_map, Option.map_map, Option.map_map]
      rfl
    · have hrun := hm.run_crlf (c :: s) hs
      rw [crlf_cons hc] at hrun
      rw [crlf_cons hc, find?, hrun, find?]
      cases m.run (c :: s) with
      | some x => rfl
      | none =>
        simp only [Option.map_none]
        rw [ih hs', Option.map_map, Option.map_map]
        congr 1
        funext x
        simp [crlf_cons hc]

theorem Blind.segments_crlf (hm : m.Blind g) (hs : '\r' ∉ s) :
    m.segments (crlf s) =
      (crlf (m.segments s).1, (m.segments s).2.map fun x => (g x.1, crlf x.2)) := by
  induction s using m.scan_induction with
  | missed s h =>
    have hcrlf := hm.find?_crlf hs
    rw [h, Option.map_none] at hcrlf
    rw [segments_of_none h, segments_of_none hcrlf, List.map_nil]
  | found s b a r h ih =>
    have hcrlf := hm.find?_crlf hs
    rw [h, Option.map_some] at hcrlf
    have hr : '\r' ∉ r := by
      obtain ⟨t, rfl, ht⟩ := m.find?_splits h
      exact fun hr => hs (List.mem_append_right b ((m.suffix_of_run ht).subset hr))
    rw [segments_of_some h, segments_of_some hcrlf, ih hr, List.map_cons]

theorem Blind.findAll_crlf (hm : m.Blind g) (hs : '\r' ∉ s) :
    m.findAll (crlf s) = (m.findAll s).map g := by
  rw [findAll, hm.segments_crlf hs, findAll, List.map_map, List.map_map]
  rfl

theorem Blind.delete_crlf (hm : m.Blind g) (hs : '\r' ∉ s) :
    m.delete (crlf s) = crlf (m.delete s) := by
  have hgaps : ∀ l : List (α × List Char), (l.map fun x => (g x.1, crlf x.2)).flatMap (·.2) =
      crlf (l.flatMap (·.2)) := by
    intro l
    induction l with
    | nil => rfl
    | cons x l ih => rw [List.map_cons, List.flatMap_cons, ih, List.flatMap_cons, crlf_append]
  rw [delete, hm.segments_crlf hs, hgaps, delete, crlf_append]

end Matcher

open Matcher

theorem cut_crlf (hn : Plain n) : LineBlind (cut n) crlf := by
  intro s hs
  have hfind := (literal_blind hn hn.1).find?_crlf hs
  rw [find?_literal, find?_literal, Option.map_map] at hfind
  have hcut := congrArg (Option.map fun x : List Char × Unit × List Char => (x.1, x.2.2)) hfind
  simpa only [Option.map_map, Function.comp_def, Option.map_id'] using hcut

theorem occurs_crlf (hn : Plain n) (hs : '\r' ∉ s) : occurs n (crlf s) = occurs n s := by
  rw [occurs, cut_crlf hn s hs, Option.isSome_map, occurs]

theorem Matcher.Blind.upTo {α : Type} {m : Matcher α} {g : α → α} (hm : m.Blind g)
    (hn : Plain n) : (m.upTo n).Blind crlf :=
  hm.andThen _ (cut_crlf hn)

end Mockup.Text
