import Mockup.Proofs.Extraction.Block
import Mockup.Proofs.Extraction.Chain
import Mockup.Proofs.Text.LineEnding

/-! Extraction and the ends of lines. Written with CR LF instead of LF, a text gives sources by the
same strategy, and they are the same sources written with CR LF. -/

namespace Mockup

def Sources.map (f : List Char → List Char) (s : Sources) : Sources :=
  ⟨f s.logic, f s.markup, f s.stylesheet⟩

namespace Sources

variable {f : List Char → List Char}

theorem get_map (f : List Char → List Char) (s : Sources) (k : Kind) :
    (s.map f).get k = f (s.get k) := by
  cases k <;> rfl

theorem map_set (s : Sources) (k : Kind) (t : List Char) :
    (s.set k t).map f = (s.map f).set k (f t) := by
  cases k <;> rfl

theorem isEmpty_map (hf : ∀ t, f t = [] ↔ t = []) (s : Sources) :
    (s.map f).isEmpty = s.isEmpty := by
  have h : ∀ t, (f t).isEmpty = t.isEmpty := by
    intro t
    rw [Bool.eq_iff_iff, List.isEmpty_iff, List.isEmpty_iff, hf]
  simp only [isEmpty, map, h]

end Sources

namespace Extraction

open Text Matcher

variable {raw s : List Char}

/-! ### The matchers -/

theorem plain_fence : Plain fence := by decide

theorem openFence_blind : openFence.Blind id := literal_blind plain_fence _

theorem closedFence_blind : closedFence.Blind crlf := openFence_blind.upTo plain_fence

theorem afterLineEnd_crlf (hs : '\r' ∉ s) : afterLineEnd (crlf s) = (afterLineEnd s).map crlf := by
  cases s with
  | nil => rfl
  | cons c s =>
    have hc : c ≠ '\r' := fun h => hs (h ▸ List.mem_cons_self)
    by_cases hn : c = '\n'
    · subst hn
      rfl
    · rw [crlf_cons hn]
      simp [afterLineEnd, hc, hn]

theorem findSome?_eq_map {γ β : Type} {f f' : γ → Option β} {h : β → β} {ls : List γ}
    (hf : ∀ l ∈ ls, f l = (f' l).map h) : ls.findSome? f = (ls.findSome? f').map h := by
  induction ls with
  | nil => rfl
  | cons l ls ih =>
    have hl := ih fun l' h => hf l' (List.mem_cons_of_mem l h)
    rw [List.findSome?_cons, List.findSome?_cons, hf l List.mem_cons_self, hl]
    cases f' l <;> rfl

theorem afterLabel_blind (k : Kind) : LineBlind (afterLabel (labels k)) id := by
  intro s hs
  apply findSome?_eq_map
  intro l hl
  rw [past?_crlf (labels_plain k l hl)]
  cases h : past? l s with
  | none => rfl
  | some t =>
    have ht : '\r' ∉ t := fun ht => hs ((suffix_of_past? h).subset ht)
    simp only [Option.map_some, Option.bind_some]
    rw [afterLineEnd_crlf ht, Option.map_map, Option.map_map]
    rfl

theorem labelledBlock_blind (k : Kind) : (labelledBlock k).Blind crlf :=
  (openFence_blind.andThen _ (afterLabel_blind k)).upTo plain_fence

/-- The line of a label ends at LF, so CR at its end is part of the label. -/
theorem afterAnyLabel_blind : LineBlind afterAnyLabel id := by
  intro s hs
  induction s with
  | nil => rfl
  | cons c s ih =>
    have hs' : '\r' ∉ s := fun h => hs (List.mem_cons_of_mem c h)
    by_cases hn : c = '\n'
    · subst hn
      rfl
    by_cases hc : c = '\x60'
    · subst hc
      rfl
    have hskip : ∀ t, afterAnyLabel (c :: t) = afterAnyLabel t := by
      intro t
      rw [afterAnyLabel, List.dropWhile_cons_of_pos (by simp [hn, hc]), afterAnyLabel]
    rw [crlf_cons hn, hskip, hskip, ih hs']

theorem anyBlock_blind : anyBlock.Blind crlf :=
  (openFence_blind.andThen _ afterAnyLabel_blind).upTo plain_fence

theorem markerText_blind (k : Kind) (h : markerText k ≠ []) :
    ((literal (markerText k) h).map fun _ => k).Blind id := by
  have hplain : Plain (markerText k) := by cases k <;> decide
  exact (literal_blind hplain h).map fun _ => rfl

theorem marker_blind : marker.Blind id :=
  ((markerText_blind .logic _).orElse (markerText_blind .markup _)).orElse
    (markerText_blind .stylesheet _)

theorem toFenceOnLine_blind : LineBlind toFenceOnLine id := by
  intro s hs
  rw [toFenceOnLine, cut_crlf plain_fence s hs, toFenceOnLine]
  cases cut fence s with
  | none => rfl
  | some x =>
    simp only [Option.map_some, mem_crlf_iff (c := '\n') (by decide)]
    split <;> rfl

theorem toHeadingEnd_blind {word : List Char} (hword : Plain word) :
    LineBlind (toHeadingEnd word) id := by
  intro s hs
  rw [toHeadingEnd, trimStart_crlf, past?_crlf hword, toHeadingEnd]
  cases h : past? word (trimStart s) with
  | none => rfl
  | some t =>
    have ht : '\r' ∉ t := fun ht => hs <|
      (List.dropWhile_suffix isBlank).subset ((suffix_of_past? h).subset ht)
    exact toFenceOnLine_blind t ht

theorem numberedHeading_blind {number : Char} {word : List Char} (hnumber : Plain [number, '.'])
    (hword : Plain word) : (numberedHeading number word).Blind id :=
  (literal_blind hnumber _).andThen _ (toHeadingEnd_blind hword)

theorem heading_blind : heading.Blind id :=
  ((numberedHeading_blind (by decide) (by decide)).orElse
    (numberedHeading_blind (by decide) (by decide))).orElse
      (numberedHeading_blind (by decide) (by decide))

/-! ### The strategies -/

theorem labelledBody_crlf (hr : '\r' ∉ raw) (k : Kind) :
    labelledBody (crlf raw) k = (labelledBody raw k).map crlf := by
  rw [labelledBody, (labelledBlock_blind k).find?_crlf hr, labelledBody, Option.map_map,
    Option.map_map]
  congr 1
  funext x
  exact trim_crlf x.2.1

theorem getD_map_crlf (b : Option (List Char)) : (b.map crlf).getD [] = crlf (b.getD []) := by
  cases b <;> rfl

theorem tagged_crlf (hr : '\r' ∉ raw) :
    tagged (crlf raw) = (tagged raw).map (Sources.map crlf) := by
  simp only [tagged, labelledBody_crlf hr, Option.isSome_map, getD_map_crlf]
  split <;> rfl

theorem positional_crlf (hr : '\r' ∉ raw) :
    positional (crlf raw) = (positional raw).map (Sources.map crlf) := by
  have hfind := anyBlock_blind.findAll_crlf hr
  by_cases h : anyBlock.findAll raw = []
  · rw [positional_of_nil h, positional_of_nil (by rw [hfind, h, List.map_nil]), Option.map_none]
  · have h' : anyBlock.findAll (crlf raw) ≠ [] := by rwa [hfind, Ne, List.map_eq_nil_iff]
    obtain ⟨t, ht, hget⟩ := positional_of_ne_nil h
    obtain ⟨t', ht', hget'⟩ := positional_of_ne_nil h'
    rw [ht, ht', Option.map_some, Option.some_inj]
    ext1 k
    rw [hget', hfind, List.getElem?_map, Option.map_map, Sources.get_map, hget, ← getD_map_crlf,
      Option.map_map]
    congr 2
    funext x
    exact trim_crlf x

theorem foldl_set_crlf (l : List (Kind × List Char)) (s : Sources) :
    (l.map fun x => (id x.1, crlf x.2)).foldl (fun s x => s.set x.1 (trim x.2)) (s.map crlf) =
      (l.foldl (fun s x => s.set x.1 (trim x.2)) s).map crlf := by
  induction l generalizing s with
  | nil => rfl
  | cons x l ih =>
    rw [List.map_cons, List.foldl_cons, List.foldl_cons, ← ih, Sources.map_set, trim_crlf]
    rfl

theorem markers_crlf (hr : '\r' ∉ raw) :
    markers (crlf raw) = (markers raw).map (Sources.map crlf) := by
  have hempty : ({} : Sources).map crlf = {} := rfl
  have hfold := foldl_set_crlf (marker.segments raw).2 {}
  rw [hempty] at hfold
  rw [markers, marker_blind.segments_crlf hr, markers]
  dsimp only
  rw [hfold, Sources.isEmpty_map fun _ => crlf_eq_nil_iff]
  split <;> rfl

theorem suggestedKind_crlf (hs : '\r' ∉ s) : suggestedKind (crlf s) = suggestedKind s := by
  unfold suggestedKind
  rw [occurs_crlf (by decide) hs, occurs_crlf (by decide) hs, occurs_crlf (by decide) hs,
    occurs_crlf (by decide) hs]
  simp only [mem_crlf_iff (c := '\x7b') (by decide), mem_crlf_iff (c := ':') (by decide)]

theorem cleaned_crlf (hr : '\r' ∉ raw) : cleaned (crlf raw) = crlf (cleaned raw) := by
  have hheading : '\r' ∉ heading.delete raw := fun h => hr (heading.mem_of_mem_delete h)
  rw [cleaned, heading_blind.delete_crlf hr, closedFence_blind.delete_crlf hheading, cleaned]

theorem mem_of_mem_cleaned {c : Char} (h : c ∈ cleaned raw) : c ∈ raw :=
  heading.mem_of_mem_delete (closedFence.mem_of_mem_delete h)

theorem heuristic_crlf (hr : '\r' ∉ raw) :
    heuristic (crlf raw) = (heuristic raw).map (Sources.map crlf) := by
  have hcleaned : '\r' ∉ cleaned raw := fun h => hr (mem_of_mem_cleaned h)
  rw [heuristic, cleaned_crlf hr, suggestedKind_crlf hcleaned, trim_crlf, heuristic, Option.map_map]
  congr 1
  funext k
  exact (Sources.map_set {} k (trim (cleaned raw))).symm

theorem find_crlf (hr : '\r' ∉ raw) :
    find (crlf raw) = (find raw).map fun x => (x.1, x.2.map crlf) := by
  apply findSome?_eq_map
  intro s _
  have happly : s.apply (crlf raw) = (s.apply raw).map (Sources.map crlf) := by
    cases s with
    | tagged => exact tagged_crlf hr
    | positional => exact positional_crlf hr
    | markers => exact markers_crlf hr
    | heuristic => exact heuristic_crlf hr
  rw [happly, Option.map_map, Option.map_map]
  rfl

/-- Extraction does not depend on how lines end. -/
theorem extraction_crlf (raw : List Char) (hr : '\r' ∉ raw) :
    strategy (crlf raw) = strategy raw ∧
      ∀ k, (sources (crlf raw)).get k = crlf ((sources raw).get k) := by
  constructor
  · rw [strategy, find_crlf hr, Option.map_map, strategy]
    rfl
  · intro k
    rw [sources, find_crlf hr, sources]
    cases find raw with
    | none => cases k <;> rfl
    | some x => exact Sources.get_map crlf x.2 k

/-- A block with a line end after its label and two in its body. -/
def markupBlock : List Char := "```html\n<p>\n</p>\n```".toList

theorem extraction_crlf_markupBlock :
    '\r' ∉ markupBlock ∧ strategy (crlf markupBlock) = strategy markupBlock ∧
      ∀ k, (sources (crlf markupBlock)).get k = crlf ((sources markupBlock).get k) :=
  ⟨by decide, extraction_crlf markupBlock (by decide)⟩

end Extraction

end Mockup
