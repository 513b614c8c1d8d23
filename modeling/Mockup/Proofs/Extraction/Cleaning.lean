import Mockup.Extraction.Content
import Mockup.Proofs.Extraction.Block
import Mockup.Proofs.Text.Leftmost

/-! Deleting closed fences. A piece that is kept in front of a closed fence holds no fence and ends
with another character than a backtick, so no fence is closed by what the deletion joins. Without a
fence nothing is deleted at all, headings included. -/

namespace Mockup.Extraction

open Text Matcher

variable {s b a r : List Char}

/-! ### Closed fences -/

/-- Two fences stand in the text, one behind the other. -/
def TwoFences (s : List Char) : Prop := ∃ b a r, s = b ++ (fence ++ (a ++ (fence ++ r)))

theorem closedFence_opensWith : closedFence.OpensWith fence := openFence_opensWith.upTo fence

theorem run_closedFence (r : List Char) :
    closedFence.run (fence ++ r) = cut fence r := by
  rw [closedFence, run_upTo, run_openFence, Option.bind_some]

theorem exists_of_run_closedFence (h : closedFence.run s = some (a, r)) :
    s = fence ++ (a ++ (fence ++ r)) := by
  obtain ⟨t, rfl⟩ := closedFence_opensWith.prefix_of_run h
  rw [run_closedFence] at h
  rw [← eq_append_of_cut h]

theorem run_closedFence_ne_none (h : fence <:+: r) : closedFence.run (fence ++ r) ≠ none := by
  rw [run_closedFence]
  exact mt cut_eq_none_iff.1 (not_not.2 h)

theorem find?_closedFence_eq_none_iff : closedFence.find? s = none ↔ ¬ TwoFences s := by
  constructor
  · rintro h ⟨b, a, r, rfl⟩
    exact find?_ne_none (run_closedFence_ne_none ⟨a, r, List.append_assoc _ _ _⟩) b h
  · intro h
    rw [find?_eq_none_iff]
    rintro b ⟨a, r⟩ ⟨t, rfl, ht⟩
    exact h ⟨b, a, r, by rw [← exists_of_run_closedFence ht]⟩

/-! ### Deleting them -/

/-- No fence starts in the text before the first closed fence, not even where other text follows it
than did. -/
theorem quiet_openFence_of_find? (h : closedFence.find? s = some (b, a, r)) (u : List Char) :
    openFence.Quiet b u := by
  obtain ⟨t, rfl, ht, hquiet⟩ := find?_quiet h
  have ht := exists_of_run_closedFence ht
  have hfence (q : List Char) : fence <:+: q ++ t :=
    ⟨q ++ fence ++ a, r, by simp [ht]⟩
  rcases List.eq_nil_or_concat b with rfl | ⟨p, c, rfl⟩
  · trivial
  rw [List.concat_eq_append] at hquiet ⊢
  refine openFence_opensWith.quiet_concat ?_ ?_ u
  · -- a fence in the piece would be closed by one of the two behind it
    rintro ⟨x, y, rfl⟩
    rw [List.append_assoc, List.append_assoc] at hquiet
    refine run_closedFence_ne_none (hfence (y ++ [c])) ?_
    rw [← List.append_assoc]
    exact hquiet.run_eq_none (by simp [fence])
  · -- a backtick at its end would begin an earlier fence, with two backticks of the next one
    intro hc
    have hc : c = '\x60' := by simpa [fence] using hc
    have hrun := hquiet.run_eq_none (List.cons_ne_nil c [])
    rw [hc, ht] at hrun
    exact run_closedFence_ne_none (r := '\x60' :: (a ++ (fence ++ r)))
      ⟨'\x60' :: a, r, by simp⟩ hrun

/-- No fence is closed after the closed fences are deleted. -/
theorem not_twoFences_delete (s : List Char) : ¬ TwoFences (closedFence.delete s) := by
  rw [← find?_closedFence_eq_none_iff]
  induction s using closedFence.scan_induction with
  | missed s h => rwa [delete_of_none h]
  | found s b a r h ih =>
    have hquiet : closedFence.Quiet b (closedFence.delete r) :=
      (quiet_openFence_of_find? h _).upTo fence
    rw [delete_of_some h, find?_append hquiet, ih, Option.map_none]

theorem not_twoFences_cleaned (raw : List Char) : ¬ TwoFences (cleaned raw) :=
  not_twoFences_delete _

theorem TwoFences.of_infix {t : List Char} (h : TwoFences s) (hs : s <:+: t) : TwoFences t := by
  obtain ⟨b, a, r, rfl⟩ := h
  obtain ⟨x, y, rfl⟩ := hs
  exact ⟨x ++ b, a, r ++ y, by simp⟩

/-! ### Texts without a fence -/

theorem infix_of_toHeadingEnd {word : List Char} {u : Unit}
    (h : toHeadingEnd word s = some (u, r)) : fence <:+: s := by
  obtain ⟨t, hword, hline⟩ := Option.bind_eq_some_iff.1 h
  have ht : fence <:+: t := by
    by_contra hnone
    rw [toFenceOnLine, cut_eq_none_iff.2 hnone] at hline
    cases hline
  exact (ht.trans (suffix_of_past? hword).isInfix).trans (List.dropWhile_suffix isBlank).isInfix

/-- Every heading ends with a fence. -/
theorem infix_of_heading {u : Unit} (h : heading.run s = some (u, r)) : fence <:+: s := by
  have hnumbered {number : Char} {word : List Char}
      (h : (numberedHeading number word).run s = some (u, r)) : fence <:+: s := by
    rw [numberedHeading, run_andThen, Option.bind_eq_some_iff] at h
    obtain ⟨x, hx, hend⟩ := h
    exact (infix_of_toHeadingEnd hend).trans (suffix_of_run _ hx).isInfix
  simp only [heading, run_orElse, Option.or_eq_some_iff] at h
  rcases h with (h | ⟨-, h⟩) | ⟨-, h⟩ <;> exact hnumbered h

theorem delete_of_unfenced {α : Type} {m : Matcher α}
    (hm : ∀ s x, m.run s = some x → fence <:+: s) (h : ¬ fence <:+: s) : m.delete s = s := by
  have hfind : m.find? s = none := by
    rw [find?_eq_none_iff]
    rintro b x ⟨t, rfl, ht⟩
    exact h ((hm t x ht).trans (List.suffix_append b t).isInfix)
  exact delete_of_none hfind

theorem cleaned_of_unfenced (h : ¬ fence <:+: s) : cleaned s = s := by
  have hclosed : closedFence.delete s = s :=
    delete_of_unfenced (fun _ _ ht => (closedFence_opensWith.prefix_of_run ht).isInfix) h
  rw [cleaned, delete_of_unfenced (fun _ _ ht => infix_of_heading ht) h, hclosed]

end Mockup.Extraction
