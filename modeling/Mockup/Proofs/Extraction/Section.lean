import Mockup.Proofs.Extraction.Agreement
import Mockup.Proofs.Extraction.Provenance
import Mockup.Proofs.Text.Leftmost

/-! Sections between markers. The markers cut a text in one way: each is the first that stands
behind the one before it, so of markers that overlap one counts. Joined again the pieces are the
text, and sources under markers of their own are read back as they are. -/

namespace Mockup.Extraction

open Text Matcher

variable {raw s r opening : List Char} {sections : List (Kind × List Char)} {k : Kind}
  {t : Sources}

/-! ### Cutting at markers -/

/-- A marker, with what follows it, stands in the text behind `before`. -/
def MarkedIn (s before : List Char) (x : Kind × List Char) : Prop :=
  s = before ++ (markerText x.1 ++ x.2)

/-- The text before the first marker, and the markers from there on, each with the text up to the
next one. -/
inductive MarkerCut : (s opening : List Char) → (sections : List (Kind × List Char)) → Prop where
  | none {s : List Char} (h : ∀ k, ¬ markerText k <:+: s) : MarkerCut s s []
  | next {s opening rest gap : List Char} {k : Kind} {sections : List (Kind × List Char)}
    (h : IsFirst (MarkedIn s) opening (k, rest)) (hrest : MarkerCut rest gap sections) :
    MarkerCut s opening ((k, gap) :: sections)

theorem run_marker_iff : marker.run s = some (k, r) ↔ s = markerText k ++ r := by
  refine ⟨fun h => ?_, fun h => h ▸ run_marker k r⟩
  simp only [marker, run_orElse, run_map, run_literal, Option.or_eq_some_iff,
    Option.map_eq_some_iff, Prod.exists, Prod.mk.injEq, past?_eq_some_iff] at h
  rcases h with (⟨_, _, ⟨_, rfl, _, rfl⟩, rfl, rfl⟩ | ⟨_, _, _, ⟨_, rfl, _, rfl⟩, rfl, rfl⟩) |
    ⟨_, _, _, ⟨_, rfl, _, rfl⟩, rfl, rfl⟩ <;> rfl

theorem matchedIn_marker (s : List Char) : marker.MatchedIn s = MarkedIn s := by
  funext before x
  simp only [MatchedIn, MarkedIn, run_marker_iff (k := x.1) (r := x.2), exists_eq_right]

theorem find?_marker_iff :
    marker.find? s = some (opening, k, r) ↔ IsFirst (MarkedIn s) opening (k, r) := by
  rw [find?_eq_some_iff, matchedIn_marker]

theorem find?_marker_eq_none_iff : marker.find? s = none ↔ ∀ k, ¬ markerText k <:+: s := by
  simp only [find?_eq_none_iff, matchedIn_marker, MarkedIn]
  constructor
  · rintro h k ⟨b, r, rfl⟩
    exact h b (k, r) (List.append_assoc _ _ _)
  · rintro h b x rfl
    exact h x.1 ⟨b, x.2, List.append_assoc _ _ _⟩

/-- The scan makes the cut, and there is no other. -/
theorem markerCut_iff : MarkerCut s opening sections ↔ marker.segments s = (opening, sections) := by
  constructor
  · intro h
    induction h with
    | none h => rw [segments_of_none (find?_marker_eq_none_iff.2 h)]
    | next h _ ih => rw [segments_of_some (find?_marker_iff.2 h), ih]
  · intro h
    induction s using marker.scan_induction generalizing opening sections with
    | missed s hs =>
      rw [segments_of_none hs] at h
      cases h
      exact .none (find?_marker_eq_none_iff.1 hs)
    | found s b k r hs ih =>
      rw [segments_of_some hs] at h
      cases h
      exact .next (find?_marker_iff.1 hs) (ih rfl)

namespace MarkerCut

theorem joined (h : MarkerCut s opening sections) :
    s = opening ++ sections.flatMap fun x => markerText x.1 ++ x.2 := by
  induction h with
  | none => simp
  | next h _ ih =>
    rw [List.flatMap_cons, List.append_assoc, ← ih]
    exact h.holds

theorem free (h : MarkerCut s opening sections) (k : Kind) :
    ¬ markerText k <:+: opening ∧ ∀ x ∈ sections, ¬ markerText k <:+: x.2 := by
  have hfree := segments_free (markerText_ne_nil k) (run_marker_ne_none k) s
  rwa [markerCut_iff.1 h] at hfree

theorem nil_iff (h : MarkerCut s opening sections) :
    sections = [] ↔ ∀ k, ¬ markerText k <:+: s := by
  cases h with
  | none h => simp [h]
  | next h =>
    simp only [List.cons_ne_nil, false_iff, not_forall, not_not]
    exact ⟨_, _, _, (List.append_assoc _ _ _).trans h.holds.symm⟩

end MarkerCut

/-! ### The last sections -/

/-- The last sections of the kinds. -/
def lastSections (sections : List (Kind × List Char)) : Sources :=
  ⟨lastOf sections .logic, lastOf sections .markup, lastOf sections .stylesheet⟩

theorem get_lastSections (sections : List (Kind × List Char)) (k : Kind) :
    (lastSections sections).get k = lastOf sections k := by cases k <;> rfl

theorem markers_eq (raw : List Char) :
    markers raw = if (lastSections (marker.segments raw).2).isEmpty then none
      else some (lastSections (marker.segments raw).2) := by
  have hsources : (marker.segments raw).2.foldl (fun s x => s.set x.1 (trim x.2)) {} =
      lastSections (marker.segments raw).2 := by
    ext1 k
    rw [get_lastSections, lastOf]
    exact get_foldl_set _ k
  rw [← hsources]
  rfl

theorem markers_of_cut (h : MarkerCut raw opening sections) :
    markers raw = if (lastSections sections).isEmpty then none else some (lastSections sections) := by
  rw [markers_eq, markerCut_iff.1 h]

/-! ### Sources under markers again -/

/-- The three markers in order, each on a line of its own with its source below it. -/
def remarked (t : Sources) : List Char :=
  Kind.order.flatMap fun k => markerText k ++ '\n' :: (t.get k ++ ['\n'])

/-- Where no source holds a marker, each is read back from under its own. -/
theorem markers_remarked (hfree : ∀ j, t.All fun x => ¬ markerText j <:+: x)
    (htrim : t.All fun x => trim x = x) (hne : ∃ k, t.get k ≠ []) :
    markers (remarked t) = some t := by
  let xs := Kind.order.map fun k => (k, t.get k)
  have htext : remarked t = xs.flatMap Outline.sectionText := by
    rw [List.flatMap_map]
    rfl
  have hxs : ∀ x ∈ xs, ∀ j, ¬ markerText j <:+: x.2 := by
    intro x hx j
    obtain ⟨k, -, rfl⟩ := List.mem_map.1 hx
    exact hfree j k
  have hlast : lastSections (marker.segments (remarked t)).2 = t := by
    rw [htext, Outline.segments_sections hxs]
    ext1 k
    have hk : lastOf (xs.map fun x => (x.1, '\n' :: (x.2 ++ ['\n']))) k =
        trim ('\n' :: (t.get k ++ ['\n'])) := by cases k <;> rfl
    rw [get_lastSections, hk]
    exact (trim_append_newline _).trans (htrim k)
  rw [markers_eq, hlast, if_neg]
  exact fun hempty => hne.elim fun k hk => hk (isEmpty_iff.1 hempty k)

/-! ### The stage of markers -/

/-- What the stage makes of a text that is cut at its markers. -/
structure TakesSections (raw opening : List Char) (sections : List (Kind × List Char)) : Prop where
  /-- No character is lost or counts twice. -/
  joined : raw = opening ++ sections.flatMap fun x => markerText x.1 ++ x.2
  opening_free : ∀ k, ¬ markerText k <:+: opening
  sections_free : ∀ x ∈ sections, ∀ k, ¬ markerText k <:+: x.2
  nil_iff : sections = [] ↔ ∀ k, ¬ markerText k <:+: raw
  /-- The stage applies unless the last section of every kind is blank or missing. -/
  applies_iff : markers raw ≠ none ↔ ∃ k, lastOf sections k ≠ []
  source_eq : ∀ t, markers raw = some t → ∀ k, t.get k = lastOf sections k
  again : ∀ t, markers raw = some t → markers (remarked t) = some t

/-- There is one way to cut a text at its markers, nothing of the text is lost in it, and the source
of a kind is the section behind its last marker. Put under markers again, the sources are found
again. -/
theorem markers_partition (raw : List Char) :
    (∃! c : List Char × List (Kind × List Char), MarkerCut raw c.1 c.2) ∧
      ∀ opening sections, MarkerCut raw opening sections → TakesSections raw opening sections := by
  refine ⟨⟨marker.segments raw, markerCut_iff.2 rfl, fun c hc => (markerCut_iff.1 hc).symm⟩,
    fun opening sections h => ?_⟩
  have hmarkers := markers_of_cut h
  have hget : ∀ t, markers raw = some t → ∀ k, t.get k = lastOf sections k := by
    intro t ht k
    rw [get_of_markers ht, markerCut_iff.1 h]
  refine ⟨h.joined, fun k => (h.free k).1, fun x hx k => (h.free k).2 x hx, h.nil_iff, ?_, hget,
    fun t ht => ?_⟩
  · rw [hmarkers]
    simp only [← get_lastSections, Ne, ite_eq_left_iff, reduceCtorEq, imp_false, not_not,
      isEmpty_iff, not_forall]
  · exact markers_remarked (unmarked_of_markers ht) (trimmed_of_apply (s := .markers) ht)
      (exists_source_of_markers ht)

/-- The second marker begins with the last character of the first one, which is used up. -/
def overlapping : List Char := "a /* component.scss *// component.ts".toList

theorem markers_partition_overlapping :
    MarkerCut overlapping "a ".toList [(.stylesheet, "/ component.ts".toList)] ∧
      markers overlapping ≠ none ∧
      TakesSections overlapping "a ".toList [(.stylesheet, "/ component.ts".toList)] := by
  have hcut : MarkerCut overlapping "a ".toList [(.stylesheet, "/ component.ts".toList)] :=
    markerCut_iff.2 (by decide +kernel)
  have htakes := (markers_partition overlapping).2 _ _ hcut
  exact ⟨hcut, htakes.applies_iff.2 ⟨.stylesheet, by decide⟩, htakes⟩

end Mockup.Extraction
