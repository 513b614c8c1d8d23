import Mockup.Proofs.Extraction.Page

/-! Sources wrapped in fences again. Sources without a fence make a page, and the page gives them
back; a source with a fence does not come back, for no source that is read from a block holds one.
-/

namespace Mockup.Extraction

open Text Matcher

/-- The three sources in order, each in a block without a label, one line after the other. -/
def rewrapped (s : Sources) : List Char :=
  ['\n'].intercalate (Kind.order.map fun k => fence ++ '\n' :: (s.get k ++ '\n' :: fence))

theorem rewrapped_eq (s : Sources) :
    rewrapped s = fence ++ '\n' :: (s.logic ++ '\n' :: (fence ++
      '\n' :: (fence ++ '\n' :: (s.markup ++ '\n' :: (fence ++
        '\n' :: (fence ++ '\n' :: (s.stylesheet ++ '\n' :: fence))))))) := by
  simp [rewrapped, Kind.order, Sources.get, List.intercalate, List.intersperse]

/-! ### Sources without a fence -/

variable {s : Sources}

def bareBlock {body : List Char} (h : ¬ fence <:+: body) : Block := ⟨[], body, by decide, h⟩

theorem kind?_bareBlock {body : List Char} (h : ¬ fence <:+: body) :
    (bareBlock h).kind? = none := rfl

theorem lineStart_written (ps : List (Block × List Char)) (b : Block) :
    LineStart (written (ps ++ [(b, ['\n'])])) := by
  right
  simp [written]

/-- The page of three bare blocks. -/
def rewrappedPage (h : Unfenced s) : Page where
  opening := []
  parts := [(bareBlock (h .logic), ['\n']), (bareBlock (h .markup), ['\n']),
    (bareBlock (h .stylesheet), [])]
  opening_free := by decide
  prose_free := by simp only [List.forall_mem_cons]; decide
  starts i hi := by
    match i with
    | 0 => exact .inl rfl
    | 1 => exact lineStart_written [] _
    | 2 => exact lineStart_written [_] _
  closes i hi := by
    match i with
    | 0 => exact .inr rfl
    | 1 => exact .inr rfl
    | 2 => exact .inl rfl

theorem text_rewrappedPage (h : Unfenced s) : (rewrappedPage h).text = rewrapped s := by
  rw [rewrapped_eq]
  simp [Page.text, written, rewrappedPage, Block.text, bareBlock, Sources.get]

theorem blocks_rewrappedPage (h : Unfenced s) :
    (rewrappedPage h).blocks =
      [bareBlock (h .logic), bareBlock (h .markup), bareBlock (h .stylesheet)] := rfl

/-- Sources without a fence come back trimmed, by their places. -/
theorem find_rewrapped (h : Unfenced s) :
    find (rewrapped s) = some (.positional, ⟨trim s.logic, trim s.markup, trim s.stylesheet⟩) := by
  have hkinds : ∀ b ∈ (rewrappedPage h).blocks, b.kind? = none := by
    simp only [blocks_rewrappedPage, List.forall_mem_cons, kind?_bareBlock]
    simp
  have hfind := (rewrappedPage h).find_of_no_kind (by simp [blocks_rewrappedPage]) hkinds
  rw [text_rewrappedPage] at hfind
  exact hfind

/-! ### Any sources -/

/-- Whatever the sources, the first fence opens a block that the next one closes. -/
theorem findAll_rewrapped (s : Sources) : anyBlock.findAll (rewrapped s) ≠ [] := by
  have hlabel : ∀ r, afterAnyLabel ('\n' :: r) = some ((), r) := fun r => rfl
  obtain ⟨r, hr⟩ : ∃ r, rewrapped s = fence ++ '\n' :: (s.logic ++ '\n' :: (fence ++ r)) :=
    ⟨_, rewrapped_eq s⟩
  have hfence : fence <:+: s.logic ++ '\n' :: (fence ++ r) := ⟨s.logic ++ ['\n'], r, by simp⟩
  obtain ⟨⟨body, rest⟩, hbody⟩ := exists_cut_iff.2 hfence
  have hrun : anyBlock.run (rewrapped s) = some (body, rest) := by
    simp only [anyBlock, hr, run_upTo, run_andThen, run_openFence, Option.bind_some, hlabel, hbody]
  rw [findAll_of_run hrun]
  exact List.cons_ne_nil _ _

theorem unfenced_of_rewrapped (h : sources (rewrapped s) = s) : Unfenced s := by
  rw [← h]
  exact unfenced_sources (strategy_of_block (findAll_rewrapped s))

/-- Sources found in a text are found again in the text that wraps them anew exactly when none of
them holds a fence. They are then found by their places. Sources that were found by tags or places,
or not at all, never hold one. -/
theorem rewrapped_stable_iff (raw : List Char) :
    ((sources (rewrapped (sources raw)) = sources raw ∧
        (Component.ofCompletion (rewrapped (sources raw))).formatted =
          (Component.ofCompletion raw).formatted) ↔ Unfenced (sources raw)) ∧
    (Unfenced (sources raw) → strategy (rewrapped (sources raw)) = some .positional) ∧
    (strategy raw = some .tagged ∨ strategy raw = some .positional ∨ strategy raw = none →
      Unfenced (sources raw)) := by
  refine ⟨⟨fun h => unfenced_of_rewrapped h.1, fun h => ?_⟩, fun h => ?_, fun h => ?_⟩
  · have htrim := trimmed_sources raw
    have hsources : sources (rewrapped (sources raw)) = sources raw := by
      rw [sources_eq (find_rewrapped h)]
      exact Sources.ext_get fun
        | .logic => htrim .logic
        | .markup => htrim .markup
        | .stylesheet => htrim .stylesheet
    refine ⟨hsources, ?_⟩
    change (sources (rewrapped (sources raw))).formatted = (sources raw).formatted
    rw [hsources]
  · exact strategy_eq (find_rewrapped h)
  · rw [← or_assoc] at h
    rcases h with h | h
    · exact unfenced_sources h
    · rw [sources_of_no_strategy h]
      exact Sources.All.empty (by decide)

end Mockup.Extraction
