import Mockup.Proofs.Extraction.Outline
import Mockup.Proofs.Text.Piece

/-! The strategy, the fences and the emptiness of a component agree. A strategy of blocks is
reported exactly where a block is closed, and it is the only one that may leave every source empty:
its blocks are blank then. -/

namespace Mockup

/-! ### Emptiness -/

theorem intercalate_eq_nil_iff {α : Type} {sep : List α} {parts : List (List α)}
    (h : ∀ p ∈ parts, p ≠ []) : sep.intercalate parts = [] ↔ parts = [] := by
  match parts with
  | [] => simp
  | [p] =>
    rw [List.intercalate_singleton]
    simpa using h
  | p :: q :: ps =>
    rw [List.intercalate_cons_cons]
    simp [h p List.mem_cons_self]

namespace Component

/-- A component without text is one without sources. -/
theorem isEmpty_iff (c : Component) : c.isEmpty = true ↔ ∀ k, c.sources.get k = [] := by
  have hpart : ∀ p ∈ (Kind.order.map c.sources.get).filter (!·.isEmpty), p ≠ [] := by
    intro p hp h
    simp [h] at hp
  rw [isEmpty, List.isEmpty_iff, formatted, Sources.formatted, intercalate_eq_nil_iff hpart,
    List.filter_eq_nil_iff, List.forall_mem_map]
  simp only [Bool.not_eq_true', Bool.not_eq_false, List.isEmpty_iff]
  exact ⟨fun h k => h k (by cases k <;> decide), fun h k _ => h k⟩

end Component

namespace Extraction

open Text Matcher

variable {raw s body r : List Char} {k : Kind}

/-! ### Closed fences -/

/-- A label without a backtick behind a fence, and a fence on a later line. -/
structure IsBlock (label body s r : List Char) : Prop where
  label_line : '\x60' ∉ label ∧ '\n' ∉ label
  text_eq : s = fence ++ (label ++ '\n' :: (body ++ (fence ++ r)))

/-- A fence with a label stands somewhere in the text, and another one behind it. -/
def HoldsBlock (raw : List Char) : Prop := ∃ p label body s r, IsBlock label body s r ∧ raw = p ++ s

theorem afterAnyLabel_append {label : List Char} (h : '\x60' ∉ label ∧ '\n' ∉ label)
    (s : List Char) : afterAnyLabel (label ++ '\n' :: s) = some ((), s) :=
  Block.afterAnyLabel_label ⟨label, [], h, by decide⟩ s

theorem exists_label_of_afterAnyLabel {u : Unit} (h : afterAnyLabel s = some (u, r)) :
    ∃ label, ('\x60' ∉ label ∧ '\n' ∉ label) ∧ s = label ++ '\n' :: r := by
  unfold afterAnyLabel at h
  split at h
  · rename_i t ht
    cases h
    refine ⟨s.takeWhile fun c => c != '\x60' && c != '\n', ⟨fun hc => ?_, fun hc => ?_⟩, ?_⟩
    · simpa using List.mem_takeWhile_imp hc
    · simpa using List.mem_takeWhile_imp hc
    · rw [← ht, List.takeWhile_append_dropWhile]
  · cases h

theorem run_anyBlock_iff : anyBlock.run s = some (body, r) ↔
    ∃ label rest, ('\x60' ∉ label ∧ '\n' ∉ label) ∧ s = fence ++ (label ++ '\n' :: rest) ∧
      cut fence rest = some (body, r) := by
  constructor
  · intro h
    simp only [anyBlock, openFence, run_upTo, run_andThen, run_literal, Option.bind_eq_some_iff,
      Option.map_eq_some_iff] at h
    obtain ⟨x, ⟨y, ⟨t, ht, rfl⟩, hlabel⟩, hcut⟩ := h
    obtain ⟨label, hline, hy⟩ := exists_label_of_afterAnyLabel hlabel
    exact ⟨label, x.2, hline, by rw [past?_eq_some_iff.1 ht, ← hy], hcut⟩
  · rintro ⟨label, rest, hline, rfl, hcut⟩
    simp only [anyBlock, run_upTo, run_andThen, run_openFence, Option.bind_some,
      afterAnyLabel_append hline, hcut]

theorem isBlock_of_run (h : anyBlock.run s = some (body, r)) : ∃ label, IsBlock label body s r := by
  obtain ⟨label, rest, hline, rfl, hcut⟩ := run_anyBlock_iff.1 h
  exact ⟨label, hline, by rw [← eq_append_of_cut hcut]⟩

theorem run_of_isBlock {label : List Char} (h : IsBlock label body s r) :
    anyBlock.run s ≠ none := by
  have hfence : fence <:+: body ++ (fence ++ r) := ⟨body, r, List.append_assoc _ _ _⟩
  obtain ⟨x, hcut⟩ := exists_cut_iff.2 hfence
  have hrun := run_anyBlock_iff.2 ⟨label, _, h.label_line, h.text_eq, hcut⟩
  exact Option.ne_none_iff_exists'.2 ⟨_, hrun⟩

theorem findAll_ne_nil_iff_find? {α : Type} (m : Matcher α) (s : List Char) :
    m.findAll s ≠ [] ↔ m.find? s ≠ none := by
  cases h : m.find? s with
  | none => simp [findAll_of_none h]
  | some x => simp [findAll_of_some h]

theorem positional_ne_none_iff_findAll : positional raw ≠ none ↔ anyBlock.findAll raw ≠ [] := by
  refine ⟨fun h hnil => h (positional_of_nil hnil), fun h => ?_⟩
  obtain ⟨t, ht, -⟩ := positional_of_ne_nil h
  simp [ht]

theorem positional_ne_none_iff : positional raw ≠ none ↔ HoldsBlock raw := by
  rw [positional_ne_none_iff_findAll, findAll_ne_nil_iff_find?]
  constructor
  · intro h
    obtain ⟨⟨p, body, r⟩, hfind⟩ := Option.ne_none_iff_exists'.1 h
    obtain ⟨s, hs, hrun⟩ := find?_splits _ hfind
    obtain ⟨label, hblock⟩ := isBlock_of_run hrun
    exact ⟨p, label, body, s, r, hblock, hs⟩
  · rintro ⟨p, label, body, s, r, hblock, rfl⟩
    exact find?_ne_none (run_of_isBlock hblock) p

/-! ### Labelled blocks -/

theorem backtick_notMem_labels (k : Kind) : ∀ l ∈ labels k, '\x60' ∉ l := by cases k <;> decide

/-- What stands before the rest of a text after a label is a line. -/
theorem afterAnyLabel_of_afterLabel {u : Unit} (h : afterLabel (labels k) s = some (u, r)) :
    afterAnyLabel s = some ((), r) := by
  obtain ⟨l, hl, hs⟩ := exists_label_of_afterLabel h
  have hline := backtick_notMem_labels k l hl
  obtain ⟨-, -, hn⟩ := labels_plain k l hl
  rcases hs with rfl | rfl
  · exact afterAnyLabel_append ⟨hline, hn⟩ r
  · rw [← List.singleton_append, ← List.append_assoc]
    exact afterAnyLabel_append (by simp [hline, hn]) r

/-- A labelled block is a block. -/
theorem run_anyBlock_of_labelled (h : (labelledBlock k).run s = some (body, r)) :
    anyBlock.run s = some (body, r) := by
  simp only [labelledBlock, run_upTo, run_andThen, Option.bind_eq_some_iff] at h
  obtain ⟨x, ⟨y, hopen, hlabel⟩, hcut⟩ := h
  simp only [anyBlock, run_upTo, run_andThen, hopen, Option.bind_some,
    afterAnyLabel_of_afterLabel hlabel, hcut]

theorem positional_of_tagged (h : tagged raw ≠ none) : positional raw ≠ none := by
  obtain ⟨k, hk⟩ := tagged_ne_none_iff.1 h
  obtain ⟨b, hb⟩ := Option.ne_none_iff_exists'.1 hk
  obtain ⟨⟨p, body, r⟩, hfind, -⟩ := Option.map_eq_some_iff.1 hb
  obtain ⟨s, rfl, hrun⟩ := find?_splits _ hfind
  rw [positional_ne_none_iff_findAll, findAll_ne_nil_iff_find?]
  exact find?_ne_none (by simp [run_anyBlock_of_labelled hrun]) p

theorem strategy_of_blocks_iff :
    strategy raw = some .tagged ∨ strategy raw = some .positional ↔ positional raw ≠ none := by
  refine ⟨fun h => ?_, fun h => strategy_of_block (positional_ne_none_iff_findAll.1 h)⟩
  rcases h with h | h
  · obtain ⟨t, ht⟩ := apply_of_strategy h
    exact positional_of_tagged (Option.ne_none_iff_exists'.2 ⟨t, ht⟩)
  · obtain ⟨t, ht⟩ := apply_of_strategy h
    exact Option.ne_none_iff_exists'.2 ⟨t, ht⟩

/-! ### The other strategies -/

theorem exists_source_of_markers {t : Sources} (h : markers raw = some t) : ∃ k, t.get k ≠ [] := by
  dsimp only [markers] at h
  split at h
  · cases h
  · rename_i hempty
    cases h
    by_contra hnone
    exact hempty (isEmpty_iff.2 fun k => by simpa using not_exists.1 hnone k)

/-- A text that suggests a kind is not blank. -/
theorem exists_not_blank_of_suggestedKind (h : suggestedKind s = some k) :
    ∃ c ∈ s, ¬ isBlank c := by
  have hword (w : List Char) (c : Char) (hc : c ∈ w) (hb : ¬ isBlank c) (hw : occurs w s = true) :
      ∃ c ∈ s, ¬ isBlank c := by
    exact ⟨c, (occurs_iff.1 hw).subset hc, hb⟩
  unfold suggestedKind at h
  split_ifs at h with himport hmarkup hstyle
  · rw [Bool.and_eq_true] at himport
    exact hword "import".toList 'i' (by decide) (by decide) himport.1
  · rw [Bool.or_eq_true] at hmarkup
    rcases hmarkup with hw | hw
    · exact hword "<div".toList '<' (by decide) (by decide) hw
    · exact hword "<mat-".toList '<' (by decide) (by decide) hw
  · rw [Bool.and_eq_true, decide_eq_true_eq] at hstyle
    exact ⟨'\x7b', hstyle.1, by decide⟩

theorem heuristic_eq_some {t : Sources} (h : heuristic raw = some t) :
    ∃ k, (∀ j, t.get j = if j = k then trim (cleaned raw) else []) ∧ trim (cleaned raw) ≠ [] := by
  obtain ⟨k, hk, rfl⟩ := Option.map_eq_some_iff.1 h
  obtain ⟨c, hc, hblank⟩ := exists_not_blank_of_suggestedKind hk
  refine ⟨k, fun j => ?_, fun hnil => hblank (trim_eq_nil_iff.1 hnil c hc)⟩
  rw [Sources.get_set, Sources.get_empty]

/-! ### Blank blocks -/

/-- The bodies of the blocks that a strategy makes sources of. -/
def bodies (raw : List Char) : Strategy → List (List Char)
  | .tagged => Kind.order.filterMap fun k => ((labelledBlock k).find? raw).map (·.2.1)
  | .positional => (anyBlock.findAll raw).take 3
  | .markers | .heuristic => []

theorem bodies_of_tagged {t : Sources} (h : tagged raw = some t) :
    bodies raw .tagged ≠ [] ∧ ∀ b ∈ bodies raw .tagged, ∃ k, trim b = t.get k := by
  dsimp only [tagged] at h
  split at h
  · rename_i hany
    cases h
    obtain ⟨k, hk, hbody⟩ := List.any_eq_true.1 hany
    obtain ⟨b, hb⟩ := Option.isSome_iff_exists.1 hbody
    obtain ⟨x, hx, -⟩ := Option.map_eq_some_iff.1 hb
    refine ⟨List.ne_nil_of_mem (List.mem_filterMap.2 ⟨k, hk, by rw [hx]; rfl⟩), fun b hb => ?_⟩
    obtain ⟨j, -, hj⟩ := List.mem_filterMap.1 hb
    obtain ⟨x, hx, rfl⟩ := Option.map_eq_some_iff.1 hj
    have hj' : labelledBody raw j = some (trim x.2.1) := by rw [labelledBody, hx]; rfl
    exact ⟨j, by cases j <;> simp [Sources.get, hj']⟩
  · cases h

theorem bodies_of_positional {t : Sources} (h : positional raw = some t) :
    bodies raw .positional ≠ [] ∧ ∀ b ∈ bodies raw .positional, ∃ k, trim b = t.get k := by
  have hne := positional_ne_none_iff_findAll.1 (Option.ne_none_iff_exists'.2 ⟨t, h⟩)
  obtain ⟨t', ht', hget⟩ := positional_of_ne_nil hne
  cases h.symm.trans ht'
  refine ⟨by simpa [bodies] using hne, fun b hb => ?_⟩
  obtain ⟨i, hi, rfl⟩ := List.mem_iff_getElem.1 hb
  rw [bodies, List.length_take] at hi
  obtain ⟨k, rfl⟩ : ∃ k, Kind.order.idxOf k = i := by
    match i, hi with
    | 0, _ => exact ⟨.logic, rfl⟩
    | 1, _ => exact ⟨.markup, rfl⟩
    | 2, _ => exact ⟨.stylesheet, rfl⟩
    | i + 3, hi => omega
  refine ⟨k, ?_⟩
  simp only [bodies, List.getElem_take]
  rw [hget, List.getElem?_eq_getElem (by omega), Option.map_some, Option.getD_some]

/-- Without any source, a strategy that applied has read blocks, and they are blank. -/
theorem bodies_blank {c : Strategy} {t : Sources} (h : c.apply raw = some t)
    (hempty : ∀ k, t.get k = []) :
    bodies raw c ≠ [] ∧ ∀ b ∈ bodies raw c, ∀ x ∈ b, isBlank x := by
  have hblank {b : List Char} (hb : ∃ k, trim b = t.get k) : ∀ x ∈ b, isBlank x := by
    obtain ⟨k, hk⟩ := hb
    exact trim_eq_nil_iff.1 (hk.trans (hempty k))
  cases c with
  | tagged => exact (bodies_of_tagged h).imp_right fun hb b hm => hblank (hb b hm)
  | positional => exact (bodies_of_positional h).imp_right fun hb b hm => hblank (hb b hm)
  | markers =>
    obtain ⟨k, hk⟩ := exists_source_of_markers h
    exact absurd (hempty k) hk
  | heuristic =>
    obtain ⟨k, hget, hne⟩ := heuristic_eq_some h
    exact absurd (by simpa [hget] using hempty k) hne

/-! ### All strategies -/

/-- What the reported strategy tells of a text, of the sources found in it, and of the component
that they make. -/
structure Agrees (raw : List Char) (t : Sources) (c : Component) : Prop where
  blocks_iff : strategy raw = some .tagged ∨ strategy raw = some .positional ↔ positional raw ≠ none
  positional_of_tagged : tagged raw ≠ none → positional raw ≠ none
  positional_iff : positional raw ≠ none ↔ HoldsBlock raw
  markers_some : strategy raw = some .markers → ∃ k, t.get k ≠ []
  heuristic_one : strategy raw = some .heuristic → ∃! k, t.get k ≠ []
  none_empty : strategy raw = none → ∀ k, t.get k = []
  formatted_eq : c.formatted =
    "\n\n".toList.intercalate ([t.logic, t.markup, t.stylesheet].filter (· ≠ []))
  isEmpty_iff : c.isEmpty = true ↔ ∀ k, t.get k = []
  blank_of_isEmpty : c.isEmpty = true → ∀ s, strategy raw = some s →
    (s = .tagged ∨ s = .positional) ∧ bodies raw s ≠ [] ∧ ∀ b ∈ bodies raw s, ∀ x ∈ b, isBlank x

/-- Blocks are what counts first: a strategy of blocks is reported exactly when a fence is closed in
the text, and tags need such a fence too. Markers leave some source and the words of a text exactly
one; no strategy leaves none. The text of a component is that of the sources that are there, and
without text there are no sources: then no strategy applied, or all that it read are blank blocks.
-/
theorem strategy_agrees (raw : List Char) :
    Agrees raw (sources raw) (Component.ofCompletion raw) := by
  have hempty := (Component.ofCompletion raw).isEmpty_iff
  refine ⟨strategy_of_blocks_iff, positional_of_tagged, positional_ne_none_iff,
    fun h => exists_source_of_markers (apply_sources h), fun h => ?_, fun h k => ?_, ?_, hempty,
    fun hc s hs => ?_⟩
  · obtain ⟨k, hget, hne⟩ := heuristic_eq_some (apply_sources h)
    refine ⟨k, by simpa [hget] using hne, fun j hj => ?_⟩
    by_contra hjk
    exact hj (by rw [hget, if_neg hjk])
  · rw [sources_of_no_strategy h, Sources.get_empty]
  · have hkept (x : List Char) : (!x.isEmpty) = decide (x ≠ []) := by cases x <;> rfl
    change Sources.formatted (sources raw) = _
    simp only [Sources.formatted, Kind.order, List.map_cons, List.map_nil, Sources.get, hkept]
    rfl
  · obtain ⟨hne, hblank⟩ := bodies_blank (apply_sources hs) (hempty.1 hc)
    refine ⟨?_, hne, hblank⟩
    cases s with
    | tagged => exact .inl rfl
    | positional => exact .inr rfl
    | markers => exact absurd rfl hne
    | heuristic => exact absurd rfl hne

/-- A tagged block without anything in it, which makes an empty component. -/
def blankBlock : List Char := "```css\n\n```".toList

theorem strategy_agrees_blankBlock :
    strategy blankBlock = some .tagged ∧ HoldsBlock blankBlock ∧
      (Component.ofCompletion blankBlock).isEmpty = true ∧
      bodies blankBlock .tagged ≠ [] ∧ ∀ b ∈ bodies blankBlock .tagged, ∀ x ∈ b, isBlank x := by
  have hs : strategy blankBlock = some .tagged := by decide +kernel
  have hempty : (Component.ofCompletion blankBlock).isEmpty = true := by decide +kernel
  have h := strategy_agrees blankBlock
  exact ⟨hs, h.positional_iff.1 (h.blocks_iff.1 (.inl hs)), hempty,
    (h.blank_of_isEmpty hempty _ hs).2⟩

end Extraction

end Mockup
