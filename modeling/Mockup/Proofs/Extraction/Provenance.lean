import Mathlib.Data.List.Dedup
import Mathlib.Data.List.Perm.Basic
import Mockup.Proofs.Extraction.Outline
import Mockup.Proofs.Text.Piece

/-! Where sources come from. Each is a trimmed piece of the text, or what is left of the text after
deletions, and two of them never share a place. -/

namespace Mockup.Extraction

open Text Matcher

variable {raw : List Char} {t : Sources}

/-! ### Blocks -/

theorem anyBlock_holdsValue : anyBlock.HoldsValue := upTo_holdsValue _ fence

theorem labelledBlock_holdsValue (k : Kind) : (labelledBlock k).HoldsValue :=
  upTo_holdsValue _ fence

theorem infix_of_tagged (h : tagged raw = some t) : t.All (· <:+: raw) := by
  refine tagged_all List.nil_infix (fun k b hb => ?_) h
  obtain ⟨⟨p, body, r⟩, hfind, rfl⟩ := Option.map_eq_some_iff.1 hb
  obtain ⟨s, rfl, hrun⟩ := find?_splits _ hfind
  exact (trim_isInfix body).trans <|
    ((labelledBlock_holdsValue k).isInfix hrun).trans (List.suffix_append p s).isInfix

/-- The first three blocks are read in the order in which they stand. -/
theorem inTurn_of_positional (h : positional raw = some t) :
    InTurn [t.logic, t.markup, t.stylesheet] raw := by
  have hturn := anyBlock_holdsValue.findAll_inTurn raw
  have htrim (b : List Char) : trim b <:+: b := trim_isInfix b
  unfold positional at h
  match hbodies : anyBlock.findAll raw with
  | [] =>
    rw [hbodies] at h
    cases h
  | [a] =>
    rw [hbodies] at h hturn
    cases h
    exact (InTurn.of_isInfix (.cons (htrim a) .nil) hturn).append_empty 2
  | [a, b] =>
    rw [hbodies] at h hturn
    cases h
    exact (InTurn.of_isInfix (.cons (htrim a) (.cons (htrim b) .nil)) hturn).append_empty 1
  | a :: b :: c :: bs =>
    rw [hbodies] at h hturn
    cases h
    have hthree := hturn.sublist (List.take_sublist 3 _)
    exact InTurn.of_isInfix (.cons (htrim a) (.cons (htrim b) (.cons (htrim c) .nil))) hthree

theorem infix_of_positional (h : positional raw = some t) : t.All (· <:+: raw) := by
  intro k
  refine (inTurn_of_positional h).isInfix ?_
  cases k <;> simp [Sources.get]

/-! ### Sections -/

theorem run_marker_ne_none (k : Kind) (s : List Char) : marker.run (markerText k ++ s) ≠ none := by
  rw [run_marker]
  exact Option.some_ne_none _

theorem markerText_ne_nil (k : Kind) : markerText k ≠ [] := by cases k <;> decide

/-- What is put last under each kind. -/
def lastOf (l : List (Kind × List Char)) (k : Kind) : List Char :=
  ((l.reverse.find? fun x => x.1 = k).map fun x => trim x.2).getD []

theorem lastOf_cons (x : Kind × List Char) (l : List (Kind × List Char)) (k : Kind) :
    lastOf (x :: l) k =
      if k ∈ l.map (·.1) then lastOf l k else if x.1 = k then trim x.2 else [] := by
  rw [lastOf, List.reverse_cons, List.find?_append]
  by_cases hk : k ∈ l.map (·.1)
  · obtain ⟨y, hy, rfl⟩ := List.mem_map.1 hk
    have hfound : (l.reverse.find? fun z => z.1 = y.1).isSome := by
      rw [List.find?_isSome]
      exact ⟨y, List.mem_reverse.2 hy, by simp⟩
    rw [if_pos hk, lastOf, Option.or_of_isSome hfound]
  · have hnone : (l.reverse.find? fun z => z.1 = k) = none := by
      rw [List.find?_eq_none]
      intro z hz he
      exact hk (List.mem_map.2 ⟨z, List.mem_reverse.1 hz, by simpa using he⟩)
    rw [if_neg hk, hnone, Option.none_or, List.find?_singleton]
    by_cases hx : x.1 = k <;> simp [hx]

theorem lastOf_of_notMem {l : List (Kind × List Char)} {k : Kind} (h : k ∉ l.map (·.1)) :
    lastOf l k = [] := by
  cases l with
  | nil => rfl
  | cons x l =>
    rw [List.map_cons, List.mem_cons, not_or] at h
    rw [lastOf_cons, if_neg h.2, if_neg (Ne.symm h.1)]

/-- The last sections of the kinds are some of the sections, in their order. -/
theorem map_lastOf_sublist (l : List (Kind × List Char)) :
    ((l.map (·.1)).dedup.map (lastOf l)).Sublist (l.map fun x => trim x.2) := by
  induction l with
  | nil => exact .slnil
  | cons x l ih =>
    have hrest : (l.map (·.1)).dedup.map (lastOf (x :: l)) = (l.map (·.1)).dedup.map (lastOf l) :=
      List.map_congr_left fun k hk => by rw [lastOf_cons, if_pos (List.mem_dedup.1 hk)]
    rw [List.map_cons, List.map_cons]
    by_cases hx : x.1 ∈ l.map (·.1)
    · rw [List.dedup_cons_of_mem hx, hrest]
      exact ih.cons _
    · rw [List.dedup_cons_of_notMem hx, List.map_cons, hrest, lastOf_cons, if_neg hx, if_pos rfl]
      exact ih.cons_cons _

theorem get_of_markers (h : markers raw = some t) (k : Kind) :
    t.get k = lastOf (marker.segments raw).2 k := by
  dsimp only [markers] at h
  split at h
  · cases h
  · cases h
    exact get_foldl_set _ k

/-- The sections that stay stand in the text in turn, in the order of the kinds' last markers. -/
theorem inTurn_of_markers (h : markers raw = some t) :
    ∃ ks : List Kind, ks.Perm Kind.order ∧ InTurn (ks.map t.get) raw := by
  let l := (marker.segments raw).2
  let found := (l.map (·.1)).dedup
  let absent := Kind.order.filter fun k => k ∉ found
  obtain ⟨tail, htail, hturn⟩ := marker.segments_inTurn raw
  have hget : t.get = lastOf l := funext (get_of_markers h)
  refine ⟨found ++ absent, ?_, ?_⟩
  · refine (List.perm_ext_iff_of_nodup ?_ (by decide)).2 fun k => ?_
    · refine (List.nodup_dedup _).append (List.Nodup.filter _ (by decide)) fun k hk hk' => ?_
      exact of_decide_eq_true (List.mem_filter.1 hk').2 hk
    · have hk : k ∈ Kind.order := by cases k <;> decide
      simp only [List.mem_append, absent, List.mem_filter, hk, true_and, iff_true]
      by_cases hf : k ∈ found <;> simp [hf]
  · have habsent : absent.map (lastOf l) = List.replicate absent.length [] := by
      rw [← List.map_const']
      refine List.map_congr_left fun k hk => lastOf_of_notMem fun hl => ?_
      simpa [found, List.mem_dedup.2 hl] using (List.mem_filter.1 hk).2
    have htrim : InTurn (l.map fun x => trim x.2) tail := by
      refine InTurn.of_isInfix ?_ hturn
      exact List.forall₂_map_left_iff.2 <| List.forall₂_map_right_iff.2 <|
        List.forall₂_same.2 fun x _ => trim_isInfix x.2
    rw [hget, List.map_append, habsent, htail]
    exact ((htrim.sublist (map_lastOf_sublist l)).append_empty _).append_left _

theorem infix_of_markers (h : markers raw = some t) : t.All (· <:+: raw) := by
  obtain ⟨ks, hks, hturn⟩ := inTurn_of_markers h
  intro k
  refine hturn.isInfix (List.mem_map_of_mem (hks.mem_iff.2 ?_))
  cases k <;> decide

/-- No marker is left in a section. -/
theorem unmarked_of_markers (h : markers raw = some t) (j : Kind) :
    t.All fun x => ¬ markerText j <:+: x := by
  have hfree := (segments_free (markerText_ne_nil j) (run_marker_ne_none j) raw).2
  intro k
  rw [get_of_markers h, lastOf]
  cases hlast : (marker.segments raw).2.reverse.find? fun x => x.1 = k with
  | none => exact fun hin => markerText_ne_nil j (List.infix_nil.1 hin)
  | some x =>
    have hx := hfree x (List.mem_reverse.1 (List.mem_of_find?_eq_some hlast))
    exact fun hin => hx (hin.trans (trim_isInfix x.2))

/-! ### Text without structure -/

theorem cleaned_sublist (raw : List Char) : (cleaned raw).Sublist raw :=
  (closedFence.delete_sublist _).trans (heading.delete_sublist raw)

theorem sublist_of_heuristic (h : heuristic raw = some t) : t.All (·.Sublist raw) := by
  obtain ⟨k, -, rfl⟩ := Option.map_eq_some_iff.1 h
  refine Sources.All.set (.empty (List.nil_sublist raw)) ?_ k
  exact (trim_isInfix _).sublist.trans (cleaned_sublist raw)

/-! ### All strategies -/

/-- What the reported strategy tells of the places of the sources in the text. -/
structure Stems (raw : List Char) (t : Sources) : Prop where
  trimmed : ∀ k, trim (t.get k) = t.get k
  of_blocks : strategy raw = some .tagged ∨ strategy raw = some .positional →
    ∀ k, t.get k <:+: raw ∧ ¬ fence <:+: t.get k
  of_markers : strategy raw = some .markers →
    ∀ k, t.get k <:+: raw ∧ ∀ j, ¬ markerText j <:+: t.get k
  of_heuristic : strategy raw = some .heuristic → ∀ k, (t.get k).Sublist raw
  positional_inTurn : strategy raw = some .positional →
    InTurn [t.logic, t.markup, t.stylesheet] raw
  markers_inTurn : strategy raw = some .markers →
    ∃ ks : List Kind, ks.Perm Kind.order ∧ InTurn (ks.map t.get) raw

/-- Nothing is in a source that is not in the text. A source of a block is a piece of the text
without a fence, one of a section a piece without a marker, and one that is taken from the whole
text is the text with something deleted. Blocks taken by their places keep their order, and sections
do not overlap either. -/
theorem sources_stem (raw : List Char) : Stems raw (sources raw) := by
  refine ⟨trimmed_sources raw, fun h k => ⟨?_, unfenced_sources h k⟩, fun h k => ⟨?_, fun j => ?_⟩,
    fun h => ?_, fun h => ?_, fun h => ?_⟩
  · rcases h with h | h
    · exact infix_of_tagged (apply_sources h) k
    · exact infix_of_positional (apply_sources h) k
  · exact infix_of_markers (apply_sources h) k
  · exact unmarked_of_markers (apply_sources h) j k
  · exact sublist_of_heuristic (apply_sources h)
  · exact inTurn_of_positional (apply_sources h)
  · exact inTurn_of_markers (apply_sources h)

end Mockup.Extraction
