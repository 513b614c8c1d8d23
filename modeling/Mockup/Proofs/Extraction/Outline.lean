import Mockup.Proofs.Extraction.Block
import Mockup.Proofs.Extraction.Chain

/-! Outlines: sections under marker comments, each marker on a line of its own, in any order and as
often as one likes. The last section of a kind is what counts, and where all of the last sections
are blank the markers do not count at all. -/

namespace Mockup.Extraction

open Text Matcher

/-! ### Texts without a fence -/

variable {raw : List Char}

theorem find?_of_unfenced {α : Type} {m : Matcher α} (hm : m.OpensWith fence)
    (h : ¬ fence <:+: raw) : m.find? raw = none :=
  find?_of_quiet (hm.quiet h (by simp))

theorem tagged_of_unfenced (h : ¬ fence <:+: raw) : tagged raw = none := by
  refine tagged_of_none fun k => ?_
  rw [labelledBody, find?_of_unfenced (labelledBlock_opensWith k) h, Option.map_none]

theorem positional_of_unfenced (h : ¬ fence <:+: raw) : positional raw = none :=
  positional_of_nil (findAll_of_none (find?_of_unfenced anyBlock_opensWith h))

/-! ### Markers -/

theorem newline_notMem_markerText (k : Kind) : '\n' ∉ markerText k := by cases k <;> decide

theorem not_fence_infix_markerText (k : Kind) : ¬ fence <:+: markerText k := by cases k <;> decide

theorem run_marker (k : Kind) (s : List Char) : marker.run (markerText k ++ s) = some (k, s) := by
  cases k <;> rfl

/-- A piece without a marker, and the end of its line, hold no start of a marker. -/
theorem quiet_marker {p : List Char} (hp : ∀ k, ¬ markerText k <:+: p) (s : List Char) :
    marker.Quiet (p ++ ['\n']) s := by
  have hquiet (k : Kind) (hk : markerText k ≠ []) :
      (literal (markerText k) hk).Quiet (p ++ ['\n']) s :=
    (literal_opensWith hk).quiet_concat (hp k) (newline_notMem_markerText k) s
  exact (((hquiet .logic _).map _).orElse ((hquiet .markup _).map _)).orElse
    ((hquiet .stylesheet _).map _)

/-- Of the texts put under a kind the last one stays. -/
theorem get_foldl_set (l : List (Kind × List Char)) (k : Kind) :
    (l.foldl (fun s (j, t) => s.set j (trim t)) ({} : Sources)).get k =
      ((l.reverse.find? fun x => x.1 = k).map fun x => trim x.2).getD [] := by
  induction l using List.reverseRecOn with
  | nil => exact Sources.get_empty k
  | append_singleton l x ih =>
    rw [List.foldl_concat, Sources.get_set, List.reverse_concat, ih]
    by_cases hk : k = x.1
    · rw [if_pos hk, List.find?_cons_of_pos (by simpa using hk.symm)]
      rfl
    · rw [if_neg hk, List.find?_cons_of_neg (by simpa using Ne.symm hk)]

theorem isEmpty_iff {s : Sources} : s.isEmpty = true ↔ ∀ k, s.get k = [] := by
  simp only [Sources.isEmpty, Bool.and_eq_true, List.isEmpty_iff]
  exact ⟨fun ⟨⟨h₁, h₂⟩, h₃⟩ k => by cases k <;> assumption,
    fun h => ⟨⟨h .logic, h .markup⟩, h .stylesheet⟩⟩

/-! ### Outlines -/

/-- Neither a fence nor a marker stands in the text. -/
def Unmarked (s : List Char) : Prop := ¬ fence <:+: s ∧ ∀ k, ¬ markerText k <:+: s

instance (s : List Char) : Decidable (Unmarked s) :=
  decidable_of_iff (¬ fence <:+: s ∧ ∀ k ∈ Kind.order, ¬ markerText k <:+: s)
    (and_congr_right' ⟨fun h k => h k (by cases k <;> decide), fun h k _ => h k⟩)

/-- A text, and sections with the kinds that their markers name. -/
structure Outline where
  opening : List Char
  sections : List (Kind × List Char)
  opening_unmarked : Unmarked opening
  bodies_unmarked : ∀ x ∈ sections, Unmarked x.2

namespace Outline

def sectionText (x : Kind × List Char) : List Char := markerText x.1 ++ '\n' :: (x.2 ++ ['\n'])

def text (o : Outline) : List Char := o.opening ++ '\n' :: o.sections.flatMap sectionText

/-- The body of the last section of the kind, trimmed. -/
def lastBody (o : Outline) (k : Kind) : List Char :=
  ((o.sections.reverse.find? fun x => x.1 = k).map fun x => trim x.2).getD []

theorem unfenced_sections {xs : List (Kind × List Char)} (h : ∀ x ∈ xs, Unmarked x.2) :
    ¬ fence <:+: xs.flatMap sectionText := by
  induction xs with
  | nil => decide
  | cons x xs ih =>
    rw [List.forall_mem_cons] at h
    rw [List.flatMap_cons, sectionText, List.append_assoc, List.cons_append, List.append_assoc,
      List.singleton_append]
    exact not_infix_append_cons (by decide) (not_fence_infix_markerText x.1)
      (not_infix_append_cons (by decide) h.1.1 (ih h.2))

theorem unfenced_text (o : Outline) : ¬ fence <:+: o.text :=
  not_infix_append_cons (by decide) o.opening_unmarked.1 (unfenced_sections o.bodies_unmarked)

/-- A section reaches from its marker to the next one. -/
theorem segments_sections {xs : List (Kind × List Char)}
    (h : ∀ x ∈ xs, ∀ k, ¬ markerText k <:+: x.2) :
    marker.segments (xs.flatMap sectionText) =
      ([], xs.map fun x => (x.1, '\n' :: (x.2 ++ ['\n']))) := by
  induction xs with
  | nil => rw [List.flatMap_nil, segments_of_none rfl, List.map_nil]
  | cons x xs ih =>
    rw [List.forall_mem_cons] at h
    have hline (k : Kind) : ¬ markerText k <:+: [] ++ '\n' :: x.2 :=
      not_infix_append_cons (newline_notMem_markerText k) (by cases k <;> decide) (h.1 k)
    have hseg := segments_append (quiet_marker hline (xs.flatMap sectionText))
    rw [ih h.2, List.append_nil, List.nil_append] at hseg
    rw [List.flatMap_cons, sectionText, List.append_assoc, segments_of_run (run_marker _ _),
      ← List.cons_append, hseg, List.map_cons]
    rfl

theorem segments_text (o : Outline) :
    (marker.segments o.text).2 = o.sections.map fun x => (x.1, '\n' :: (x.2 ++ ['\n'])) := by
  have hquiet := quiet_marker o.opening_unmarked.2 (o.sections.flatMap sectionText)
  rw [text, ← List.singleton_append, ← List.append_assoc, segments_append hquiet,
    segments_sections fun x hx => (o.bodies_unmarked x hx).2]

/-- What the last sections hold. -/
def lasts (o : Outline) : Sources :=
  ⟨o.lastBody .logic, o.lastBody .markup, o.lastBody .stylesheet⟩

theorem get_lasts (o : Outline) (k : Kind) : o.lasts.get k = o.lastBody k := by cases k <;> rfl

theorem markers_text (o : Outline) :
    markers o.text = if o.lasts.isEmpty then none else some o.lasts := by
  have htrim (t : List Char) : trim ('\n' :: (t ++ ['\n'])) = trim t := trim_append_newline t
  have hsources : (marker.segments o.text).2.foldl (fun s (k, t) => s.set k (trim t)) {} =
      o.lasts := by
    rw [segments_text, List.foldl_map]
    simp only [htrim]
    ext1 k
    rw [get_foldl_set, get_lasts, lastBody]
  rw [markers, hsources]

/-- The last sections of an outline are its sources. If all of them are blank no marker counts, even
where an earlier section is not blank, and the text is taken whole. -/
theorem find_text (o : Outline) :
    ((∃ k, o.lastBody k ≠ []) →
      strategy o.text = some .markers ∧ ∀ k, (sources o.text).get k = o.lastBody k) ∧
    ((∀ k, o.lastBody k = []) →
      markers o.text = none ∧ find o.text = (heuristic o.text).map (.heuristic, ·)) := by
  have htagged := tagged_of_unfenced o.unfenced_text
  have hpositional := positional_of_unfenced o.unfenced_text
  have hempty : o.lasts.isEmpty = true ↔ ∀ k, o.lastBody k = [] := by
    simp only [isEmpty_iff, get_lasts]
  have hmarkers := o.markers_text
  refine ⟨fun ⟨k, hk⟩ => ?_, fun h => ?_⟩
  · rw [if_neg fun h => hk (hempty.1 h k)] at hmarkers
    have hfind := find_of_markers htagged hpositional hmarkers
    refine ⟨strategy_eq hfind, fun j => ?_⟩
    rw [sources_eq hfind, get_lasts]
  · rw [if_pos (hempty.2 h)] at hmarkers
    exact ⟨hmarkers, find_of_no_markers htagged hpositional hmarkers⟩

/-- Two sections of one kind, the later one blank, around one of another kind. -/
def sample : Outline where
  opening := "Sure:".toList
  sections := [(.logic, "let a;".toList), (.markup, "<p>".toList), (.logic, " ".toList)]
  opening_unmarked := by decide
  bodies_unmarked := by decide

theorem find_sample :
    (∃ k, sample.lastBody k ≠ []) ∧ strategy sample.text = some .markers ∧
      (∀ k, (sources sample.text).get k = sample.lastBody k) ∧ sample.lastBody .logic = [] := by
  have hmarkup : ∃ k, sample.lastBody k ≠ [] := ⟨.markup, by decide⟩
  obtain ⟨hstrategy, hsources⟩ := (find_text sample).1 hmarkup
  exact ⟨hmarkup, hstrategy, hsources, by decide⟩

end Outline

end Mockup.Extraction
