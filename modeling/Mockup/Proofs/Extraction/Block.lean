import Mockup.Extraction.Fence
import Mockup.Proofs.Text.Scan

/-! Fenced blocks as they are written, and how the matchers read them. A block is read whole from
its opening fence. A search for the blocks of one kind passes over all others, closing fences
included, as long as the line ends after the closing fence. -/

namespace Mockup.Extraction

open Text Matcher

/-- The text before a fence ends a line, or there is none. -/
def LineStart (s : List Char) : Prop := s = [] ∨ s.getLast? = some '\n'

/-- The text after a fence begins with the end of the line, or there is none. -/
def LineEnd (s : List Char) : Prop := s = [] ∨ s.head? = some '\n'

instance (s : List Char) : Decidable (LineStart s) := inferInstanceAs (Decidable (_ ∨ _))

instance (s : List Char) : Decidable (LineEnd s) := inferInstanceAs (Decidable (_ ∨ _))

theorem LineStart.of_append {s t : List Char} (h : LineStart (s ++ t)) : LineStart t := by
  by_cases ht : t = []
  · exact .inl ht
  · rcases h with h | h
    · exact .inl (List.append_eq_nil_iff.1 h).2
    · rw [List.getLast?_append_of_ne_nil s ht] at h
      exact .inr h

theorem LineEnd.head_notMem {n s : List Char} (hs : LineEnd s) (hn : '\n' ∉ n) :
    ∀ c ∈ s.head?, c ∉ n := by
  intro c hc
  rcases hs with rfl | hs
  · cases hc
  · rw [hs] at hc
    cases hc
    exact hn

/-! ### The matchers of blocks -/

theorem labels_plain (k : Kind) : ∀ l ∈ labels k, l ≠ [] ∧ '\r' ∉ l ∧ '\n' ∉ l := by
  cases k <;> decide

theorem afterLineEnd_append {x : List Char} (hx : '\n' ∉ x) (s : List Char) :
    afterLineEnd (x ++ '\n' :: s) = if x = [] ∨ x = ['\r'] then some s else none := by
  match x with
  | [] => rfl
  | [c] =>
    simp only [List.mem_singleton] at hx
    by_cases hc : c = '\r'
    · subst hc; rfl
    · simp [afterLineEnd, hc, Ne.symm hx]
  | c :: d :: x =>
    simp only [List.mem_cons, not_or] at hx
    simp [afterLineEnd, Ne.symm hx.1, Ne.symm hx.2.1]

theorem exists_label_of_afterLabel {ls : List (List Char)} {s r : List Char} {u : Unit}
    (h : afterLabel ls s = some (u, r)) :
    ∃ l ∈ ls, s = l ++ '\n' :: r ∨ s = l ++ '\r' :: '\n' :: r := by
  obtain ⟨l, hl, h⟩ := List.exists_of_findSome?_eq_some h
  simp only [Option.map_eq_some_iff, Option.bind_eq_some_iff, Prod.mk.injEq] at h
  obtain ⟨_, ⟨w, hw, hend⟩, -, rfl⟩ := h
  refine ⟨l, hl, ?_⟩
  rw [past?_eq_some_iff.1 hw]
  unfold afterLineEnd at hend
  split at hend
  · cases hend
    exact .inl rfl
  · cases hend
    exact .inr rfl
  · cases hend

theorem findSome?_of_eq_ite {β : Type} {f : List Char → Option β} {ls : List (List Char)}
    {t : List Char} {a : β} (h : ∀ l ∈ ls, f l = if l = t then some a else none) :
    ls.findSome? f = if t ∈ ls then some a else none := by
  induction ls with
  | nil => rfl
  | cons l ls ih =>
    have hls := ih fun l' hl => h l' (List.mem_cons_of_mem l hl)
    rw [List.findSome?_cons, h l List.mem_cons_self, hls]
    by_cases hl : l = t
    · simp [hl]
    · simp [hl, Ne.symm hl]

theorem run_openFence (s : List Char) : openFence.run (fence ++ s) = some ((), s) := by
  rw [openFence, run_literal, past?_append, Option.map_some]

theorem openFence_opensWith : openFence.OpensWith fence := literal_opensWith (by decide)

theorem anyBlock_opensWith : anyBlock.OpensWith fence :=
  (openFence_opensWith.andThen _).upTo fence

theorem labelledBlock_opensWith (k : Kind) : (labelledBlock k).OpensWith fence :=
  (openFence_opensWith.andThen _).upTo fence

/-- A closing fence does not open a labelled block, for the line ends after it. -/
theorem quiet_closing (k : Kind) {s : List Char} (hs : LineEnd s) :
    (labelledBlock k).Quiet fence s := by
  refine ⟨?_, (labelledBlock_opensWith k).quiet (by decide) (hs.head_notMem (by decide))⟩
  have hlabel : afterLabel (labels k) s = none := by
    rw [afterLabel, List.findSome?_eq_none_iff]
    intro l hl
    obtain ⟨hne, -, hn⟩ := labels_plain k l hl
    have hp : ¬ l <+: s := fun h =>
      hne (List.prefix_nil.1 (prefix_of_prefix_append (u := []) (hs.head_notMem hn) h))
    rw [past?_eq_none_iff.2 hp, Option.bind_none, Option.map_none]
  change (labelledBlock k).run (fence ++ s) = none
  simp only [labelledBlock, run_upTo]
  rw [run_andThen, run_openFence, Option.bind_some, hlabel, Option.bind_none]

/-! ### Blocks -/

/-- A fenced block. The label keeps to its line, and the body holds no fence. -/
structure Block where
  label : List Char
  body : List Char
  label_line : '\x60' ∉ label ∧ '\n' ∉ label
  body_free : ¬ fence <:+: body

namespace Block

def text (b : Block) : List Char := fence ++ (b.label ++ '\n' :: (b.body ++ '\n' :: fence))

/-- The label, less a carriage return at its end. -/
def tag (b : Block) : List Char :=
  if b.label.getLast? = some '\r' then b.label.dropLast else b.label

/-- The kind that a block is tagged for. -/
def kind? (b : Block) : Option Kind :=
  if b.tag = "typescript".toList ∨ b.tag = "ts".toList then some .logic
  else if b.tag = "html".toList then some .markup
  else if b.tag = "scss".toList ∨ b.tag = "css".toList then some .stylesheet
  else none

/-! ### Labels -/

theorem mem_labels_iff (b : Block) (k : Kind) : b.tag ∈ labels k ↔ b.kind? = some k := by
  constructor
  · intro h
    cases k <;> simp only [labels, List.mem_cons, List.not_mem_nil, or_false] at h
    · simp only [kind?, h, if_true]
    · simp [kind?, h]
    · rcases h with h | h <;> simp [kind?, h]
  · intro h
    unfold kind? at h
    split_ifs at h with h₁ h₂ h₃ <;> cases h
    · simpa [labels] using h₁
    · simpa [labels] using h₂
    · simpa [labels] using h₃

theorem tag_eq_iff (b : Block) {l : List Char} (hl : '\r' ∉ l) :
    l = b.tag ↔ b.label = l ∨ b.label = l ++ ['\r'] := by
  unfold tag
  split
  · rename_i h
    obtain ⟨t, ht⟩ := List.getLast?_eq_some_iff.1 h
    rw [ht, List.dropLast_concat, List.append_left_inj]
    refine ⟨fun h => .inr h.symm, fun h => h.elim (fun h => ?_) Eq.symm⟩
    simp [← h] at hl
  · rename_i h
    refine ⟨fun h => .inl h.symm, fun hl => hl.elim Eq.symm fun hl => ?_⟩
    simp [hl] at h

theorem past?_label (b : Block) {l : List Char} (hr : '\r' ∉ l) (hn : '\n' ∉ l) (s : List Char) :
    (past? l (b.label ++ '\n' :: s)).bind afterLineEnd = if l = b.tag then some s else none := by
  simp only [b.tag_eq_iff hr]
  by_cases hp : l <+: b.label
  · obtain ⟨x, hx⟩ := hp
    have hx' : '\n' ∉ x := fun h => b.label_line.2 (hx ▸ List.mem_append_right l h)
    rw [← hx, List.append_assoc, past?_append, Option.bind_some, afterLineEnd_append hx']
    simp
  · have hq : ¬ l <+: b.label ++ '\n' :: s := fun h => hp ((prefix_append_cons_iff hn).1 h)
    rw [past?_eq_none_iff.2 hq, Option.bind_none, if_neg]
    rintro (h | h) <;> exact hp (by simp [h])

theorem afterLabel_label (b : Block) (k : Kind) (s : List Char) :
    afterLabel (labels k) (b.label ++ '\n' :: s) =
      if b.kind? = some k then some ((), s) else none := by
  simp only [← b.mem_labels_iff k]
  apply findSome?_of_eq_ite
  intro l hl
  obtain ⟨-, hr, hn⟩ := labels_plain k l hl
  rw [b.past?_label hr hn]
  split <;> rfl

theorem afterAnyLabel_label (b : Block) (s : List Char) :
    afterAnyLabel (b.label ++ '\n' :: s) = some ((), s) := by
  have h : ∀ c ∈ b.label, (c != '\x60' && c != '\n') = true := by
    intro c hc
    have h₁ : c ≠ '\x60' := fun h => b.label_line.1 (h ▸ hc)
    have h₂ : c ≠ '\n' := fun h => b.label_line.2 (h ▸ hc)
    simp [h₁, h₂]
  rw [afterAnyLabel, List.dropWhile_append_of_pos h]
  rfl

/-! ### Reading -/

theorem cut_body (b : Block) (s : List Char) :
    cut fence (b.body ++ '\n' :: (fence ++ s)) = some (b.body ++ ['\n'], s) := by
  rw [cut_append_cons (by decide) b.body_free, cut_append, Option.map_some]

theorem run_anyBlock (b : Block) (s : List Char) :
    anyBlock.run (b.text ++ s) = some (b.body ++ ['\n'], s) := by
  simp only [anyBlock, text, run_upTo, run_andThen, List.append_assoc, List.cons_append,
    run_openFence, Option.bind_some, afterAnyLabel_label, cut_body]

theorem run_labelledBlock (b : Block) (k : Kind) (s : List Char) :
    (labelledBlock k).run (b.text ++ s) =
      if b.kind? = some k then some (b.body ++ ['\n'], s) else none := by
  simp only [labelledBlock, run_upTo, text, List.append_assoc, List.cons_append]
  rw [run_andThen, run_openFence, Option.bind_some, afterLabel_label]
  split
  · rw [Option.bind_some, cut_body]
  · rfl

theorem not_infix_label (b : Block) : ¬ fence <:+: ['\x60', '\x60'] ++ b.label := by
  intro h
  have hc := h.sublist.count_le '\x60'
  rw [List.count_append, List.count_eq_zero_of_not_mem b.label_line.1] at hc
  exact absurd hc (by decide)

/-- A block of another kind is passed over. -/
theorem quiet_labelledBlock (b : Block) {k : Kind} (hb : b.kind? ≠ some k) {s : List Char}
    (hs : LineEnd s) : (labelledBlock k).Quiet b.text s := by
  have htext : b.text = '\x60' :: ((['\x60', '\x60'] ++ b.label) ++
      (('\n' :: b.body ++ ['\n']) ++ fence)) := by simp [text, fence]
  have hopening := b.run_labelledBlock k s
  rw [if_neg hb] at hopening
  rw [htext] at hopening ⊢
  refine ⟨hopening, quiet_append.2 ⟨?_, quiet_append.2 ⟨?_, quiet_closing k hs⟩⟩⟩
  · refine (labelledBlock_opensWith k).quiet b.not_infix_label fun c hc => ?_
    cases hc
    decide
  · refine (labelledBlock_opensWith k).quiet_concat ?_ (by decide) _
    rw [List.infix_cons_iff, not_or]
    have hline : ¬ fence <+: '\n' :: b.body := fun h =>
      absurd ((prefix_append_cons_iff (u := []) (by decide)).1 h) (by decide)
    exact ⟨hline, b.body_free⟩

end Block

end Mockup.Extraction
