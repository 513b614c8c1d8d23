import Mockup.Proofs.Extraction.Cleaning

/-! What is left when closed fences are deleted. A fence is closed by the next one behind it; both go
with what lies between them, and the search goes on behind. A piece that is kept in front of a
closed fence holds no fence and does not end with a backtick, so none is made where two pieces meet,
and the fence that may be left stands behind all that was deleted. -/

namespace Mockup.Extraction

open Text Matcher

/-! ### Cutting at closed fences -/

/-- A closed fence: what it holds, and the text in front of it, up to the one before. -/
structure Region where
  before : List Char
  body : List Char

namespace Region

def text (x : Region) : List Char := x.before ++ (fence ++ (x.body ++ fence))

/-- What stands in front of the closed fences. -/
def kept (regions : List Region) : List Char := regions.flatMap Region.before

end Region

variable {s before body after rest rest' b r : List Char} {regions regions' : List Region}

/-- A fence stands behind `before`, and in what follows it there is one that closes it. -/
def ClosableIn (s before t : List Char) : Prop := s = before ++ (fence ++ t) ∧ fence <:+: t

/-- The first closed fence, from the first fence that can be closed to the first one behind it. -/
structure FirstClosed (s before body after : List Char) : Prop where
  opening : IsFirst (ClosableIn s) before (body ++ (fence ++ after))
  closing : IsFirst (fun b r => body ++ (fence ++ after) = b ++ (fence ++ r)) body after

/-- The closed fences of a text, from the first one on, and the text behind the last one. -/
inductive FenceCut : (s : List Char) → (regions : List Region) → (rest : List Char) → Prop where
  | none {s : List Char} (h : ¬ TwoFences s) : FenceCut s [] s
  | next {s before body after rest : List Char} {regions : List Region}
    (h : FirstClosed s before body after) (hrest : FenceCut after regions rest) :
    FenceCut s (⟨before, body⟩ :: regions) rest

theorem matchedIn_closedFence_iff : closedFence.MatchedIn s before (body, after) ↔
    ∃ t, s = before ++ (fence ++ t) ∧ cut fence t = some (body, after) := by
  constructor
  · rintro ⟨u, rfl, hu⟩
    obtain ⟨t, rfl⟩ := closedFence_opensWith.prefix_of_run hu
    rw [run_closedFence] at hu
    exact ⟨t, rfl, hu⟩
  · rintro ⟨t, rfl, ht⟩
    exact ⟨fence ++ t, rfl, by rw [run_closedFence, ht]⟩

theorem closableIn_iff {t : List Char} :
    ClosableIn s before t ↔ s = before ++ (fence ++ t) ∧ ∃ x, cut fence t = some x := by
  rw [ClosableIn, exists_cut_iff]

/-- A search finds the first closed fence. -/
theorem find?_closedFence_iff :
    closedFence.find? s = some (before, body, after) ↔ FirstClosed s before body after := by
  rw [find?_eq_some_iff]
  constructor
  · intro h
    obtain ⟨t, hs, hcut⟩ := matchedIn_closedFence_iff.1 h.holds
    obtain rfl := eq_append_of_cut hcut
    refine ⟨⟨closableIn_iff.2 ⟨hs, _, hcut⟩, fun b' t' h' => ?_⟩,
      (cut_eq_some_iff (by decide)).1 hcut⟩
    obtain ⟨hs', x, hx⟩ := closableIn_iff.1 h'
    exact h.least b' x (matchedIn_closedFence_iff.2 ⟨t', hs', hx⟩)
  · intro h
    have hcut := (cut_eq_some_iff (by decide)).2 h.closing
    refine ⟨matchedIn_closedFence_iff.2 ⟨_, h.opening.holds.1, hcut⟩, fun b' x' h' => ?_⟩
    obtain ⟨t', hs', hx⟩ := matchedIn_closedFence_iff.1 h'
    exact h.opening.least b' t' (closableIn_iff.2 ⟨hs', x', hx⟩)

namespace FirstClosed

theorem twoFences (h : FirstClosed s before body after) : TwoFences s :=
  ⟨before, body, after, h.opening.holds.1⟩

theorem eq {before' body' after' : List Char} (h : FirstClosed s before body after)
    (h' : FirstClosed s before' body' after') : (before, body, after) = (before', body', after') :=
  Option.some.inj ((find?_closedFence_iff.2 h).symm.trans (find?_closedFence_iff.2 h'))

theorem text_eq (h : FirstClosed s before body after) : s = Region.text ⟨before, body⟩ ++ after := by
  simpa [Region.text] using h.opening.holds.1

theorem delete_eq (h : FirstClosed s before body after) :
    closedFence.delete s = before ++ closedFence.delete after :=
  delete_of_some (find?_closedFence_iff.2 h)

/-- No fence is made at the end of what stands in front of the first closed fence. -/
theorem behind (h : FirstClosed s before body after) {u : List Char}
    (hfence : before ++ u = b ++ (fence ++ r)) : ∃ c, b = before ++ c ∧ u = c ++ (fence ++ r) := by
  have hquiet := quiet_openFence_of_find? (find?_closedFence_iff.2 h) u
  obtain ⟨c, rfl, hc⟩ := hquiet.matchedIn_behind (matchedIn_literal_iff.2 hfence)
  exact ⟨c, rfl, matchedIn_literal_iff.1 hc⟩

end FirstClosed

namespace FenceCut

/-- The scan makes a cut. -/
theorem exists_of (s : List Char) : ∃ regions rest, FenceCut s regions rest := by
  induction s using closedFence.scan_induction with
  | missed s h => exact ⟨[], s, .none (find?_closedFence_eq_none_iff.1 h)⟩
  | found s before body after h ih =>
    obtain ⟨regions, rest, hrest⟩ := ih
    exact ⟨_, rest, .next (find?_closedFence_iff.1 h) hrest⟩

theorem unique (h : FenceCut s regions rest) (h' : FenceCut s regions' rest') :
    regions = regions' ∧ rest = rest' := by
  induction h generalizing regions' rest' with
  | none hnone =>
    cases h' with
    | none => exact ⟨rfl, rfl⟩
    | next hfirst _ => exact absurd hfirst.twoFences hnone
  | next hfirst _ ih =>
    cases h' with
    | none hnone => exact absurd hfirst.twoFences hnone
    | next hfirst' hrest' =>
      cases hfirst.eq hfirst'
      obtain ⟨rfl, rfl⟩ := ih hrest'
      exact ⟨rfl, rfl⟩

theorem joined (h : FenceCut s regions rest) : s = regions.flatMap Region.text ++ rest := by
  induction h with
  | none => rfl
  | next hfirst _ ih =>
    rw [List.flatMap_cons, List.append_assoc, ← ih]
    exact hfirst.text_eq

theorem delete_eq (h : FenceCut s regions rest) :
    closedFence.delete s = Region.kept regions ++ rest := by
  induction h with
  | none hnone => exact delete_of_none (find?_closedFence_eq_none_iff.2 hnone)
  | next hfirst _ ih =>
    rw [hfirst.delete_eq, ih, Region.kept, Region.kept, List.flatMap_cons, List.append_assoc]

/-- A fence in what is left stands behind all that was kept in front of a closed one. By induction on
the cut, which passes over one kept piece after another. -/
theorem behind (h : FenceCut s regions rest)
    (hfence : Region.kept regions ++ rest = b ++ (fence ++ r)) :
    ∃ c, b = Region.kept regions ++ c ∧ rest = c ++ (fence ++ r) := by
  induction h generalizing b with
  | none => exact ⟨b, rfl, hfence⟩
  | next hfirst _ ih =>
    rw [Region.kept, List.flatMap_cons, List.append_assoc] at hfence
    obtain ⟨c, rfl, hc⟩ := hfirst.behind hfence
    obtain ⟨d, rfl, hrest⟩ := ih hc
    exact ⟨d, by rw [Region.kept, Region.kept, List.flatMap_cons, List.append_assoc], hrest⟩

end FenceCut

/-! ### Deleting -/

/-- What deleting the closed fences makes of a text that is cut at them. -/
structure DeletesFences (s : List Char) (regions : List Region) (rest : List Char) : Prop where
  /-- No character is lost or counts twice. -/
  joined : s = regions.flatMap Region.text ++ rest
  delete_eq : closedFence.delete s = Region.kept regions ++ rest
  /-- No two fences are left, so a second deletion finds nothing. -/
  not_twoFences : ¬ TwoFences (closedFence.delete s)
  again : closedFence.delete (closedFence.delete s) = closedFence.delete s
  /-- A fence that is left was there before, behind the last closed one. -/
  behind : ∀ b r, closedFence.delete s = b ++ (fence ++ r) →
    ∃ c, b = Region.kept regions ++ c ∧ rest = c ++ (fence ++ r)

/-- There is one way to cut a text at its closed fences. Deleting them leaves no two fences, wherever
backticks meet, and none at all but in the text behind the last of them. -/
theorem closed_fences_deleted (s : List Char) :
    (∃! c : List Region × List Char, FenceCut s c.1 c.2) ∧
      ∀ regions rest, FenceCut s regions rest → DeletesFences s regions rest := by
  obtain ⟨regions, rest, h⟩ := FenceCut.exists_of s
  refine ⟨⟨(regions, rest), h, fun c hc => ?_⟩, fun regions rest h => ?_⟩
  · obtain ⟨hregions, hrest⟩ := hc.unique h
    exact Prod.ext hregions hrest
  · have hnone := not_twoFences_delete s
    refine ⟨h.joined, h.delete_eq, hnone, ?_, fun b r hfence => ?_⟩
    · exact delete_of_none (find?_closedFence_eq_none_iff.2 hnone)
    · rw [h.delete_eq] at hfence
      exact h.behind hfence

/-- Ten backticks in a row close a fence, open and close another one, and leave a backtick. -/
def backticked : List Char := "``a```b`````````` ```c".toList

theorem backticked_deleted :
    FenceCut backticked [⟨"``a".toList, "b".toList⟩, ⟨[], []⟩] "` ```c".toList ∧
      DeletesFences backticked [⟨"``a".toList, "b".toList⟩, ⟨[], []⟩] "` ```c".toList := by
  have hfirst : FirstClosed backticked "``a".toList "b".toList "``````` ```c".toList :=
    find?_closedFence_iff.1 (by decide +kernel)
  have hsecond : FirstClosed "``````` ```c".toList [] [] "` ```c".toList :=
    find?_closedFence_iff.1 (by decide +kernel)
  have hnone : ¬ TwoFences "` ```c".toList :=
    find?_closedFence_eq_none_iff.1 (by decide +kernel)
  have hcut := FenceCut.next hfirst (.next hsecond (.none hnone))
  exact ⟨hcut, (closed_fences_deleted backticked).2 _ _ hcut⟩

end Mockup.Extraction
