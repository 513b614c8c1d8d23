import Mockup.Proofs.Extraction.Agreement
import Mockup.Proofs.Text.Leftmost

/-! Headers of labelled blocks. The first header of a kind decides what is read for the kind: its
block ends at the first fence behind it, closing or opening, and where there is none no later header
has one either. -/

namespace Mockup.Extraction

open Text Matcher

variable {raw s t r body slot : List Char} {k : Kind}

/-- A fence, a label of the kind, and the end of the line, LF or CR LF. -/
def IsHeader (k : Kind) (h : List Char) : Prop :=
  ∃ l ∈ labels k, h = fence ++ (l ++ ['\n']) ∨ h = fence ++ (l ++ ['\r', '\n'])

/-- A header of the kind stands in the text, between `before` and `rest`. -/
def HeaderIn (k : Kind) (raw before rest : List Char) : Prop :=
  ∃ h, IsHeader k h ∧ raw = before ++ (h ++ rest)

/-- What stands between the first header of the kind and the first fence behind it. -/
def IsFirstBody (k : Kind) (raw body : List Char) : Prop :=
  ∃ before rest after, IsFirst (HeaderIn k raw) before rest ∧
    IsFirst (fun b r => rest = b ++ (fence ++ r)) body after

/-! ### Reading a header -/

/-- The header is the first line of a block that is tagged for the kind. -/
theorem isHeader_iff {h : List Char} :
    IsHeader k h ↔ ∃ b : Block, b.kind? = some k ∧ h = fence ++ (b.label ++ ['\n']) := by
  constructor
  · rintro ⟨l, hl, h⟩
    obtain ⟨-, hr, hn⟩ := labels_plain k l hl
    have hline := backtick_notMem_labels k l hl
    have hkind (b : Block) (hb : b.label = l ∨ b.label = l ++ ['\r']) : b.kind? = some k :=
      (b.mem_labels_iff k).1 ((b.tag_eq_iff hr).2 hb ▸ hl)
    rcases h with rfl | rfl
    · let b : Block := ⟨l, [], ⟨hline, hn⟩, by decide⟩
      exact ⟨b, hkind b (.inl rfl), rfl⟩
    · let b : Block := ⟨l ++ ['\r'], [], ⟨by simp [hline], by simp [hn]⟩, by decide⟩
      refine ⟨b, hkind b (.inr rfl), ?_⟩
      simp only [b, List.append_assoc, List.singleton_append]
  · rintro ⟨b, hb, rfl⟩
    have htag := (b.mem_labels_iff k).2 hb
    obtain ⟨-, hr, -⟩ := labels_plain k b.tag htag
    refine ⟨b.tag, htag, ?_⟩
    rcases (b.tag_eq_iff hr).1 rfl with h | h
    · exact .inl (congrArg (fun x => fence ++ (x ++ ['\n'])) h)
    · right
      rw [h]
      simp only [List.append_assoc, List.singleton_append]

theorem suffix_of_label (k : Kind) (s : List Char) (u : Unit) (r : List Char)
    (h : afterLabel (labels k) s = some (u, r)) : r <:+ s := suffix_afterLabel h

/-- The beginning of a labelled block. -/
def header (k : Kind) : Matcher Unit :=
  openFence.andThen (afterLabel (labels k)) (suffix_of_label k)

theorem labelledBlock_eq (k : Kind) : labelledBlock k = (header k).upTo fence := rfl

theorem header_opensWith (k : Kind) : (header k).OpensWith fence := openFence_opensWith.andThen _

theorem run_header_iff {u : Unit} :
    (header k).run t = some (u, r) ↔ ∃ h, IsHeader k h ∧ t = h ++ r := by
  constructor
  · intro h
    simp only [header, openFence, run_andThen, run_literal, Option.bind_eq_some_iff,
      Option.map_eq_some_iff] at h
    obtain ⟨x, ⟨w, hw, rfl⟩, hlabel⟩ := h
    obtain ⟨l, hl, hs⟩ := exists_label_of_afterLabel hlabel
    rw [past?_eq_some_iff.1 hw]
    rcases hs with rfl | rfl
    · exact ⟨_, ⟨l, hl, .inl rfl⟩, by simp⟩
    · exact ⟨_, ⟨l, hl, .inr rfl⟩, by simp⟩
  · rintro ⟨h, hh, rfl⟩
    obtain ⟨b, hb, rfl⟩ := isHeader_iff.1 hh
    have hlabel := b.afterLabel_label k r
    rw [if_pos hb] at hlabel
    simp only [header, List.append_assoc, List.singleton_append]
    rw [run_andThen, run_openFence, Option.bind_some, hlabel]

theorem matchedIn_header_iff {before : List Char} {u : Unit} :
    (header k).MatchedIn raw before (u, r) ↔ HeaderIn k raw before r := by
  simp only [MatchedIn, HeaderIn, run_header_iff]
  constructor
  · rintro ⟨t, ht, h, hh, rfl⟩
    exact ⟨h, hh, ht⟩
  · rintro ⟨h, hh, hr⟩
    exact ⟨_, hr, h, hh, rfl⟩

/-- A line that opens a block has no fence but the one at its start. -/
theorem isApart_of_line {m : Matcher Unit} (ho : m.OpensWith fence)
    (h : ∀ s u r, m.run s = some (u, r) → ∃ b : Block, s = fence ++ (b.label ++ ['\n']) ++ r) :
    m.IsApart := by
  intro s u r hrun
  obtain ⟨b, rfl⟩ := h s u r hrun
  exact ⟨'\x60', (['\x60', '\x60'] ++ b.label) ++ ['\n'], rfl,
    ho.quiet_concat b.not_infix_label (by decide) r⟩

theorem header_isApart (k : Kind) : (header k).IsApart := by
  refine isApart_of_line (header_opensWith k) fun s u r h => ?_
  obtain ⟨h, hh, rfl⟩ := run_header_iff.1 h
  obtain ⟨b, -, rfl⟩ := isHeader_iff.1 hh
  exact ⟨b, rfl⟩

/-! ### The first header -/

theorem find?_header_iff {before : List Char} {u : Unit} :
    (header k).find? raw = some (before, u, r) ↔ IsFirst (HeaderIn k raw) before r := by
  rw [find?_eq_some_iff]
  refine ⟨fun h => ⟨matchedIn_header_iff.1 h.holds, fun b' r' h' => ?_⟩,
    fun h => ⟨matchedIn_header_iff.2 h.holds, fun b' x' h' => ?_⟩⟩
  · exact h.least b' ((), r') (matchedIn_header_iff.2 h')
  · exact h.least b' x'.2 (matchedIn_header_iff.1 h')

theorem labelledBody_eq_some_iff :
    labelledBody raw k = some slot ↔ ∃ body, IsFirstBody k raw body ∧ slot = trim body := by
  have hfind (before body after : List Char) :
      (labelledBlock k).find? raw = some (before, body, after) ↔
        ∃ rest, IsFirst (HeaderIn k raw) before rest ∧
          IsFirst (fun b r => rest = b ++ (fence ++ r)) body after := by
    rw [labelledBlock_eq, find?_upTo_eq_some_iff (header_isApart k) (header_opensWith k)]
    simp only [find?_header_iff, cut_eq_some_iff (n := fence) (by decide)]
    exact ⟨fun ⟨_, rest, h⟩ => ⟨rest, h⟩, fun ⟨rest, h⟩ => ⟨(), rest, h⟩⟩
  simp only [labelledBody, Option.map_eq_some_iff, Prod.exists, hfind, IsFirstBody]
  constructor
  · rintro ⟨before, body, after, ⟨rest, hbody⟩, rfl⟩
    exact ⟨body, ⟨before, rest, after, hbody⟩, rfl⟩
  · rintro ⟨body, ⟨before, rest, after, hbody⟩, rfl⟩
    exact ⟨before, body, after, ⟨rest, hbody⟩, rfl⟩

/-- One header with a fence behind it is enough, for then the first one has a fence behind it. -/
theorem exists_firstBody_iff :
    (∃ body, IsFirstBody k raw body) ↔
      ∃ before rest, HeaderIn k raw before rest ∧ fence <:+: rest := by
  constructor
  · rintro ⟨body, before, rest, after, hheader, hbody⟩
    exact ⟨before, rest, hheader.holds, body, after, by rw [hbody.holds, List.append_assoc]⟩
  · rintro ⟨before, rest, hheader, hfence⟩
    have hin := matchedIn_header_iff (u := ()).2 hheader
    obtain ⟨⟨before', u, rest'⟩, hfind⟩ :=
      Option.ne_none_iff_exists'.1 fun h => find?_eq_none_iff.1 h before ((), rest) hin
    have hfirst := find?_header_iff.1 hfind
    have hfence' : fence <:+: rest' := by
      rcases Nat.lt_or_eq_of_le (hfirst.least before rest hheader) with hlt | heq
      · have hin' := matchedIn_header_iff (u := ()).2 hfirst.holds
        exact (header_isApart k).opens_behind (header_opensWith k) hin' hin hlt
      · -- the header with a fence behind it is the first one
        obtain ⟨t, rfl, ht⟩ := hin
        obtain ⟨t', ht', hrun'⟩ := matchedIn_header_iff (u := ()).2 hfirst.holds
        obtain ⟨-, rfl⟩ := List.append_inj ht' heq.symm
        rw [ht] at hrun'
        cases hrun'
        exact hfence
    obtain ⟨⟨body, after⟩, hcut⟩ := exists_cut_iff.2 hfence'
    exact ⟨body, before', rest', after, hfirst, (cut_eq_some_iff (by decide)).1 hcut⟩

/-- What the stage of labelled blocks makes of a text. -/
structure ReadsHeaders (raw : List Char) : Prop where
  /-- A block of a kind is found where any header of the kind has a fence behind it. -/
  found_iff : ∀ k, labelledBody raw k ≠ none ↔
    ∃ before rest, HeaderIn k raw before rest ∧ fence <:+: rest
  /-- It is the one that the first header opens and the first fence behind that ends. -/
  body_iff : ∀ k slot, labelledBody raw k = some slot ↔
    ∃ body, IsFirstBody k raw body ∧ slot = trim body
  applies_iff : tagged raw ≠ none ↔ ∃ k, labelledBody raw k ≠ none
  /-- The source of a kind depends on the blocks of that kind alone. -/
  source_eq : ∀ t, tagged raw = some t → ∀ k, t.get k = (labelledBody raw k).getD []

/-- For each kind by itself, the first header is read up to the first fence behind it. A header
without one rules out all later headers of the kind. -/
theorem tagged_reads_headers (raw : List Char) : ReadsHeaders raw where
  found_iff k := by
    rw [← exists_firstBody_iff, Option.ne_none_iff_exists']
    simp only [labelledBody_eq_some_iff]
    exact ⟨fun ⟨_, body, hbody, _⟩ => ⟨body, hbody⟩, fun ⟨body, hbody⟩ => ⟨_, body, hbody, rfl⟩⟩
  body_iff _ _ := labelledBody_eq_some_iff
  applies_iff := tagged_ne_none_iff
  source_eq t ht k := by
    obtain ⟨j, hj⟩ := tagged_ne_none_iff.1 (Option.ne_none_iff_exists'.2 ⟨t, ht⟩)
    obtain ⟨t', ht', hget⟩ := tagged_of_body hj
    cases ht.symm.trans ht'
    exact hget k

/-- The fence that ends a block may open another one. -/
example : tagged "```html\nhi\n```ts\nx\n```".toList =
    some ⟨"x".toList, "hi".toList, []⟩ := by decide +kernel

end Mockup.Extraction
