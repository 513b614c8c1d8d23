import Mockup.Proofs.Extraction.Block
import Mockup.Proofs.Extraction.Chain

/-! Pages: prose with fenced blocks in it, each fence on a line of its own. Finding the sources of a
page gives back its blocks. With a block that is tagged for a kind, every kind gets the first of the
blocks tagged for it; without one, the first three blocks are the three sources. -/

namespace Mockup.Extraction

open Text Matcher

/-- Blocks, each with the prose after it, as they are written. -/
def written (parts : List (Block × List Char)) : List Char := parts.flatMap fun x => x.1.text ++ x.2

/-- Prose and blocks in turn. Prose holds no fence, a block starts on a line of its own, and nothing
follows its closing fence on the line. -/
structure Page where
  opening : List Char
  parts : List (Block × List Char)
  opening_free : ¬ fence <:+: opening
  prose_free : ∀ x ∈ parts, ¬ fence <:+: x.2
  starts : ∀ i < parts.length, LineStart (opening ++ written (parts.take i))
  closes : ∀ i, (h : i < parts.length) → LineEnd (parts[i].2 ++ written (parts.drop (i + 1)))

namespace Page

def text (p : Page) : List Char := p.opening ++ written p.parts

def blocks (p : Page) : List Block := p.parts.map (·.1)

/-- The body of the first block tagged for the kind, trimmed. -/
def firstBody (p : Page) (k : Kind) : List Char :=
  ((p.blocks.find? fun b => b.kind? = some k).map fun b => trim b.body).getD []

/-- The body of the block with the given number, counted from zero, trimmed. -/
def bodyAt (p : Page) (i : Nat) : List Char := (p.blocks[i]?.map fun b => trim b.body).getD []

/-! ### The page after the first block -/

theorem written_cons (x : Block × List Char) (ps : List (Block × List Char)) :
    written (x :: ps) = x.1.text ++ (x.2 ++ written ps) := by
  rw [written, List.flatMap_cons, List.append_assoc]
  rfl

/-- What comes after the first block of a page is a page. -/
def tail (p : Page) {x : Block × List Char} {ps : List (Block × List Char)}
    (h : p.parts = x :: ps) : Page where
  opening := x.2
  parts := ps
  opening_free := p.prose_free x (by simp [h])
  prose_free y hy := p.prose_free y (by simp [h, hy])
  starts i hi := by
    have hs := p.starts (i + 1) (by simp [h, hi])
    rw [h, List.take_succ_cons, written_cons, ← List.append_assoc] at hs
    exact hs.of_append
  closes i hi := by
    have hc := p.closes (i + 1) (by simp [h, hi])
    simpa [h] using hc

section Tail

variable (p : Page) {x : Block × List Char} {ps : List (Block × List Char)} (h : p.parts = x :: ps)

theorem text_eq : p.text = p.opening ++ (x.1.text ++ (p.tail h).text) := by
  rw [text, h, written_cons]
  rfl

theorem text_of_nil (h : p.parts = []) : p.text = p.opening := by
  rw [text, h, written, List.flatMap_nil, List.append_nil]

theorem blocks_eq : p.blocks = x.1 :: (p.tail h).blocks := by
  rw [blocks, h, List.map_cons]
  rfl

include h in
theorem lineStart_opening : LineStart p.opening := by
  have hs := p.starts 0 (by simp [h])
  rwa [List.take_zero, written, List.flatMap_nil, List.append_nil] at hs

theorem lineEnd_tail : LineEnd (p.tail h).text := by
  have hc := p.closes 0 (by simp [h])
  simpa [h, text, tail] using hc

include h in
/-- No fence opens in the prose before the first block. -/
theorem quiet_opening {α : Type} {m : Matcher α} (hm : m.OpensWith fence) (s : List Char) :
    m.Quiet p.opening s := by
  rcases p.lineStart_opening h with ho | ho
  · rw [ho]
    trivial
  · obtain ⟨t, ht⟩ := List.getLast?_eq_some_iff.1 ho
    have hfree : ¬ fence <:+: t := fun hi =>
      p.opening_free (ht ▸ List.infix_append_of_infix_left hi)
    rw [ht]
    exact hm.quiet_concat hfree (by decide) s

end Tail

theorem find?_of_nil (p : Page) (h : p.parts = []) {α : Type} {m : Matcher α}
    (hm : m.OpensWith fence) : m.find? p.text = none := by
  rw [p.text_of_nil h]
  exact find?_of_quiet (hm.quiet p.opening_free (by simp))

/-! ### Searching a page -/

/-- The blocks of a page are all that is found when labels do not matter. -/
theorem findAll_text (p : Page) :
    anyBlock.findAll p.text = p.blocks.map fun b => b.body ++ ['\n'] := by
  induction h : p.parts generalizing p with
  | nil => rw [findAll_of_none (p.find?_of_nil h anyBlock_opensWith), blocks, h]; rfl
  | cons x ps ih =>
    rw [p.text_eq h, findAll_append (p.quiet_opening h anyBlock_opensWith _),
      findAll_of_run (x.1.run_anyBlock _), ih (p.tail h) rfl, p.blocks_eq h, List.map_cons]

/-- The search for a kind stops at the first block tagged for it. -/
theorem labelledBody_text (p : Page) (k : Kind) :
    labelledBody p.text k =
      (p.blocks.find? fun b => b.kind? = some k).map fun b => trim b.body := by
  induction h : p.parts generalizing p with
  | nil =>
    rw [labelledBody, p.find?_of_nil h (labelledBlock_opensWith k), blocks, h]
    rfl
  | cons x ps ih =>
    have hrun := x.1.run_labelledBlock k (p.tail h).text
    have hquiet := p.quiet_opening h (labelledBlock_opensWith k) (x.1.text ++ (p.tail h).text)
    rw [labelledBody, p.text_eq h, find?_append hquiet, p.blocks_eq h]
    by_cases hk : x.1.kind? = some k
    · rw [if_pos hk] at hrun
      rw [find?_of_run hrun, List.find?_cons_of_pos (by simpa using hk)]
      simp only [Option.map_some, trim_append_newline]
    · rw [find?_append (x.1.quiet_labelledBlock hk (p.lineEnd_tail h)),
        List.find?_cons_of_neg (by simpa using hk), ← ih (p.tail h) rfl, labelledBody]
      simp only [Option.map_map, Function.comp_def]

theorem labelledBody_ne_none_iff (p : Page) (k : Kind) :
    labelledBody p.text k ≠ none ↔ ∃ b ∈ p.blocks, b.kind? = some k := by
  rw [labelledBody_text, Ne, Option.map_eq_none_iff, List.find?_eq_none]
  simp

theorem findAll_ne_nil_iff (p : Page) : anyBlock.findAll p.text ≠ [] ↔ p.blocks ≠ [] := by
  rw [findAll_text, Ne, List.map_eq_nil_iff]

theorem bodyAt_eq (p : Page) (i : Nat) :
    (((anyBlock.findAll p.text)[i]?).map trim).getD [] = p.bodyAt i := by
  rw [findAll_text, List.getElem?_map, Option.map_map, bodyAt]
  congr 2
  funext b
  exact trim_append_newline b.body

theorem find_of_kind (p : Page) {b : Block} (hb : b ∈ p.blocks) {k : Kind} (hk : b.kind? = some k) :
    ∃ t, find p.text = some (.tagged, t) ∧ ∀ j, t.get j = p.firstBody j := by
  obtain ⟨t, ht, hget⟩ := tagged_of_body ((p.labelledBody_ne_none_iff k).2 ⟨b, hb, hk⟩)
  refine ⟨t, find_of_tagged ht, fun j => ?_⟩
  rw [hget, labelledBody_text, firstBody]

theorem tagged_of_no_kind (p : Page) (h : ∀ b ∈ p.blocks, b.kind? = none) :
    tagged p.text = none := by
  refine tagged_of_none fun k => ?_
  by_contra hk
  obtain ⟨b, hb, hk⟩ := (p.labelledBody_ne_none_iff k).1 hk
  rw [h b hb] at hk
  cases hk

theorem find_of_no_kind (p : Page) (hne : p.blocks ≠ []) (h : ∀ b ∈ p.blocks, b.kind? = none) :
    find p.text = some (.positional, ⟨p.bodyAt 0, p.bodyAt 1, p.bodyAt 2⟩) := by
  obtain ⟨t, ht, hget⟩ := positional_of_ne_nil (p.findAll_ne_nil_iff.2 hne)
  have hsources : t = ⟨p.bodyAt 0, p.bodyAt 1, p.bodyAt 2⟩ := by
    ext1 k
    rw [hget, bodyAt_eq]
    cases k <;> rfl
  rw [← hsources]
  exact find_of_positional (p.tagged_of_no_kind h) ht

/-- Finding the sources of a page undoes its writing. With a tagged block the tags decide, whatever
the order of the blocks; without one the places decide; without a block no strategy of blocks
applies. -/
theorem sources_of_text (p : Page) :
    ((∃ b ∈ p.blocks, b.kind? ≠ none) →
      strategy p.text = some .tagged ∧ ∀ k, (sources p.text).get k = p.firstBody k) ∧
    (p.blocks ≠ [] → (∀ b ∈ p.blocks, b.kind? = none) →
      strategy p.text = some .positional ∧
        sources p.text = ⟨p.bodyAt 0, p.bodyAt 1, p.bodyAt 2⟩) ∧
    (p.blocks = [] → strategy p.text ≠ some .tagged ∧ strategy p.text ≠ some .positional) := by
  refine ⟨fun ⟨b, hb, hkind⟩ => ?_, fun hne h => ?_, fun h => ?_⟩
  · obtain ⟨k, hk⟩ := Option.ne_none_iff_exists'.1 hkind
    obtain ⟨t, ht, hget⟩ := p.find_of_kind hb hk
    refine ⟨strategy_eq ht, ?_⟩
    rwa [sources_eq ht]
  · have ht := p.find_of_no_kind hne h
    exact ⟨strategy_eq ht, sources_eq ht⟩
  · have htagged : tagged p.text = none := p.tagged_of_no_kind (by simp [h])
    have hpositional : positional p.text = none := by
      apply positional_of_nil
      rw [findAll_text, h, List.map_nil]
    constructor <;> intro hs
    · obtain ⟨t, ht⟩ := apply_of_strategy hs
      exact nomatch htagged.symm.trans ht
    · obtain ⟨t, ht⟩ := apply_of_strategy hs
      exact nomatch hpositional.symm.trans ht

/-- A block tagged for the markup, its lines ended by CR LF, after a block that is not tagged. -/
def sample : Page where
  opening := "See:\n".toList
  parts := [(⟨"text".toList, "notes".toList, by decide, by decide⟩, "\nand\n".toList),
    (⟨"html\r".toList, "<p>\r".toList, by decide, by decide⟩, [])]
  opening_free := by decide
  prose_free := by decide
  starts := by decide
  closes := by decide

theorem sources_of_sample :
    strategy sample.text = some .tagged ∧ ∀ k, (sources sample.text).get k = sample.firstBody k :=
  (sources_of_text sample).1 (by decide)

end Page

end Mockup.Extraction
