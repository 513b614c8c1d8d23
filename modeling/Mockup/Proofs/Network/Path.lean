import Mockup.Network.Url.Reader
import Mockup.Proofs.Network.Percent
import Mockup.Proofs.Text.Words

/-! Paths are read back. A segment that is kept holds neither a slash nor a character that had to be
encoded, and it is no dot: dots are walked along when the path is read, and no encoded character is
one. -/

namespace Mockup.Network

open Text

/-! ### Dots -/

/-- The segments that are walked along. -/
def isDots (s : List Char) : Bool := isSingleDot s || isDoubleDot s

/-- In a segment of dots a percent sign stands for a dot. -/
theorem map_toLower_escape {s : List Char} (h : isDots s = true) {c d : Char}
    (hs : ['%', c, d] <:+: s) : ['%', c, d].map Char.toLower = "%2e".toList := by
  have hlower : ['%', c.toLower, d.toLower] <:+: s.map Char.toLower := hs.map Char.toLower
  simp only [isDots, isSingleDot, isDoubleDot, Bool.or_eq_true, beq_iff_eq] at h
  generalize s.map Char.toLower = t at hlower h
  change ['%', c.toLower, d.toLower] = ['%', '2', 'e']
  rcases h with (rfl | rfl) | (((rfl | rfl) | rfl) | rfl) <;>
    simp [List.infix_cons_iff] at hlower ⊢ <;> exact hlower

/-- Encoding makes no dots. -/
theorem isDots_encode {set : Char → Bool} (hset : set '.' = false) {s : List Char}
    (h : isDots (Percent.encode set s) = true) : isDots s = true := by
  have hself : ∀ c ∈ s, set c = false := by
    intro c hc
    by_contra hc'
    rw [Bool.not_eq_false] at hc'
    obtain ⟨b, hb⟩ := List.exists_mem_of_ne_nil _ (String.utf8EncodeChar_ne_nil (c := c))
    have hbyte : b.toNat = 46 :=
      Percent.toNat_of_encodeByte (map_toLower_escape h (Percent.infix_encode hc hc' hb))
    have hdot : c = '.' := by
      rw [← Char.toNat_inj, Utf8.toNat_of_mem_utf8EncodeChar (by omega) hb, hbyte]
      rfl
    rw [hdot, hset] at hc'
    cases hc'
  rwa [Percent.encode_eq_self hself] at h

/-! ### Segments -/

/-- A segment as it is kept. -/
structure IsSegment (s : List Char) : Prop where
  allowed : ∀ c ∈ s, Percent.inPath c = false ∧ c ≠ '/' ∧ c ≠ '\\'
  not_dots : isDots s = false

theorem isSegment_nil : IsSegment [] := ⟨nofun, by decide⟩

theorem IsSegment.notMem {s : List Char} (h : IsSegment s) : '/' ∉ s := fun hc =>
  (h.allowed _ hc).2.1 rfl

theorem isSegment_encode {s : List Char} (hs : ∀ c ∈ s, c ≠ '/' ∧ c ≠ '\\')
    (hdots : isDots s = false) : IsSegment (Percent.encode Percent.inPath s) where
  allowed c hc := by
    refine ⟨Percent.set_of_mem_encode (by decide) hc, ?_⟩
    rcases Percent.mem_of_mem_encode hc with ⟨hc, -⟩ | hc
    · exact hs c hc
    · have hsigns : ∀ c ∈ Percent.signs, c ≠ '/' ∧ c ≠ '\\' :=
        List.all_iff_forall_prop.1 (by decide)
      exact hsigns c hc
  not_dots := by
    rw [← Bool.not_eq_true] at hdots ⊢
    exact fun h => hdots (isDots_encode (by decide) h)

theorem isSegment_shorten {done : List (List Char)} (h : ∀ s ∈ done, IsSegment s) :
    ∀ s ∈ shorten false done, IsSegment s := by
  unfold shorten
  split
  · exact List.forall_mem_nil _
  · exact fun s hs => h s (List.dropLast_subset _ hs)

/-- One segment that is walked along. -/
theorem isSegment_step {done : List (List Char)} {s : List Char}
    (h : ∀ s ∈ done, IsSegment s) (hs : ∀ c ∈ s, c ≠ '/' ∧ c ≠ '\\') :
    ∀ t ∈ (if isDoubleDot s then shorten false done
      else if isSingleDot s then done
      else keepSegment false done s), IsSegment t := by
  split_ifs with hdouble hsingle
  · exact isSegment_shorten h
  · exact h
  · exact List.forall_mem_append.2 ⟨h, List.forall_mem_singleton.2
      (isSegment_encode hs (by simp [isDots, hdouble, hsingle]))⟩

theorem isSegment_resolve {done ss : List (List Char)} (h : ∀ s ∈ done, IsSegment s)
    (hss : ∀ s ∈ ss, ∀ c ∈ s, c ≠ '/' ∧ c ≠ '\\') :
    ∀ s ∈ resolve false done ss, IsSegment s := by
  have hnil : ∀ s ∈ [([] : List Char)], IsSegment s := List.forall_mem_singleton.2 isSegment_nil
  induction ss generalizing done with
  | nil => exact h
  | cons s rest ih =>
    obtain ⟨hs, hrest⟩ := List.forall_mem_cons.1 hss
    have hstep := isSegment_step h hs
    cases rest with
    | nil =>
      rw [resolve]
      split_ifs at hstep ⊢
      · exact List.forall_mem_append.2 ⟨hstep, hnil⟩
      · exact List.forall_mem_append.2 ⟨hstep, hnil⟩
      · exact hstep
    | cons t rest => exact ih hstep hrest

theorem resolve_ne_nil {done ss : List (List Char)} (h : ss ≠ []) : resolve false done ss ≠ [] := by
  induction ss generalizing done with
  | nil => exact absurd rfl h
  | cons s rest ih =>
    cases rest with
    | nil =>
      rw [resolve]
      split_ifs
      · simp
      · simp
      · simp [keepSegment]
    | cons t rest => exact ih (List.cons_ne_nil _ _)

/-- Segments that are kept are read as they are. -/
theorem resolve_eq_append {done ss : List (List Char)} (h : ∀ s ∈ ss, IsSegment s) :
    resolve false done ss = done ++ ss := by
  induction ss generalizing done with
  | nil => exact (List.append_nil done).symm
  | cons s rest ih =>
    obtain ⟨hs, hrest⟩ := List.forall_mem_cons.1 h
    have hdots := hs.not_dots
    rw [isDots, Bool.or_eq_false_iff] at hdots
    have hkeep : keepSegment false done s = done ++ [s] := by
      unfold keepSegment
      rw [Percent.encode_eq_self fun c hc => (hs.allowed c hc).1]
      rfl
    have hstep : (if isDoubleDot s then shorten false done
        else if isSingleDot s then done
        else keepSegment false done s) = done ++ [s] := by
      rw [hdots.1, hdots.2]
      exact hkeep
    cases rest with
    | nil =>
      rw [resolve, hdots.1, hdots.2]
      exact hkeep
    | cons t rest =>
      rw [resolve, hstep, ih hrest, List.append_assoc]
      · rfl
      · exact List.cons_ne_nil _ _

/-! ### Paths -/

/-- A path as it is kept. -/
structure IsPath (ss : List (List Char)) : Prop where
  ne_nil : ss ≠ []
  isSegment : ∀ s ∈ ss, IsSegment s

theorem text_segments {ss : List (List Char)} (h : ss ≠ []) :
    (UrlPath.segments ss).text = '/' :: ['/'].intercalate ss := by
  change ss.flatMap ('/' :: ·) = _
  induction ss with
  | nil => exact absurd rfl h
  | cons s ss ih =>
    cases ss with
    | nil => simp
    | cons t ss =>
      rw [List.flatMap_cons, ih (List.cons_ne_nil t ss), List.intercalate_cons_cons,
        List.append_assoc]
      rfl

theorem readSegments_text {ss : List (List Char)} (h : IsPath ss) :
    readSegments false (UrlPath.segments ss).text = ss := by
  have hpieces : pieces '/' (['/'].intercalate ss) = ss :=
    List.splitOn_intercalate '/' (fun s hs => (h.isSegment s hs).notMem) h.ne_nil
  rw [text_segments h.ne_nil]
  change resolve false [] (pieces '/' (['/'].intercalate ss)) = ss
  rw [hpieces]
  exact resolve_eq_append h.isSegment

theorem isPath_readSegments {s : List Char} (hs : '\\' ∉ s) : IsPath (readSegments false s) := by
  have hrest {t : List Char} (ht : '\\' ∉ t) : IsPath (resolve false [] (pieces '/' t)) := by
    refine ⟨resolve_ne_nil (List.splitOn_ne_nil '/' t), ?_⟩
    refine isSegment_resolve (List.forall_mem_nil _) fun p hp c hc => ?_
    obtain ⟨hmem, hne⟩ := mem_of_mem_splitOn hp hc
    exact ⟨hne, fun h => ht (h ▸ hmem)⟩
  unfold readSegments
  split
  · exact hrest fun h => hs (List.mem_cons_of_mem _ h)
  · exact hrest hs

end Mockup.Network
