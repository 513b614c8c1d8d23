import Mockup.Proofs.Extraction.Agreement
import Mockup.Proofs.Text.Leftmost

/-! The scan for blocks, told by places in the text. From each place on, the next block is the one
that opens first, and the scan goes on behind its closing fence. There is one such scan, and the
strategy without labels takes the first three of its blocks. -/

namespace Mockup.Extraction

open Text Matcher

variable {raw s r body : List Char} {p i : Nat}

/-! ### Blocks and their places -/

/-- A block opens at the place: a fence, the rest of a line without a backtick, and some fence on a
later line. -/
def OpensAt (raw : List Char) (i : Nat) : Prop :=
  ∃ label body r, IsBlock label body (raw.drop i) r

/-- A block with the place of its opening fence. -/
structure Placed where
  opening : Nat
  label : List Char
  body : List Char

namespace Placed

/-- The place behind the line of the label. -/
def start (b : Placed) : Nat := b.opening + (fence.length + (b.label.length + 1))

/-- The place behind the closing fence. -/
def stop (b : Placed) : Nat := b.start + (b.body.length + fence.length)

/-- The block is in the text: its label fills the line, and its body runs to the first fence. -/
structure StandsIn (b : Placed) (raw : List Char) : Prop where
  label_line : '\x60' ∉ b.label ∧ '\n' ∉ b.label
  line_eq : raw.drop b.opening = fence ++ (b.label ++ '\n' :: raw.drop b.start)
  body_first :
    IsFirst (fun u v => raw.drop b.start = u ++ (fence ++ v)) b.body (raw.drop b.stop)

variable {b c : Placed}

theorem StandsIn.opensAt (h : b.StandsIn raw) : OpensAt raw b.opening :=
  ⟨b.label, b.body, raw.drop b.stop, h.label_line, by rw [h.line_eq, ← h.body_first.holds]⟩

/-- Only one block opens at a place. -/
theorem StandsIn.eq (hb : b.StandsIn raw) (hc : c.StandsIn raw) (h : b.opening = c.opening) :
    b = c := by
  have hline := hb.line_eq.symm.trans (h ▸ hc.line_eq)
  rw [List.append_cancel_left_eq] at hline
  obtain ⟨hlabel, hstart⟩ := append_cons_inj hb.label_line.2 hc.label_line.2 hline
  have hbody : b.body = c.body := by
    have hbf := hb.body_first
    rw [hstart] at hbf
    have hlen := hbf.length_eq hc.body_first
    exact (List.append_inj (hbf.holds.symm.trans hc.body_first.holds) hlen).1
  obtain ⟨i, l, x⟩ := b
  obtain ⟨j, l', x'⟩ := c
  simp only at h hlabel hbody
  rw [h, hlabel, hbody]

end Placed

/-! ### Scans -/

/-- The blocks from the place `p` on: the first one that opens there or later, and then the blocks
behind its closing fence. -/
inductive BlockScan (raw : List Char) : Nat → List Placed → Prop where
  | none {p : Nat} (h : ∀ i, p ≤ i → ¬ OpensAt raw i) : BlockScan raw p []
  | next {p : Nat} {b : Placed} {bs : List Placed} (hp : p ≤ b.opening) (hb : b.StandsIn raw)
    (hleast : ∀ i, p ≤ i → OpensAt raw i → b.opening ≤ i) (hrest : BlockScan raw b.stop bs) :
    BlockScan raw p (b :: bs)

namespace BlockScan

variable {bs cs : List Placed}

theorem unique (h : BlockScan raw p bs) (h' : BlockScan raw p cs) : bs = cs := by
  induction h generalizing cs with
  | none hnone =>
    cases h' with
    | none => rfl
    | next hp hb => exact absurd hb.opensAt (hnone _ hp)
  | next hp hb hleast _ ih =>
    cases h' with
    | none hnone => exact absurd hb.opensAt (hnone _ hp)
    | next hp' hb' hleast' hrest' =>
      have hopening := Nat.le_antisymm (hleast _ hp' hb'.opensAt) (hleast' _ hp hb.opensAt)
      obtain rfl := hb.eq hb' hopening
      rw [ih hrest']

theorem le_opening (h : BlockScan raw p bs) : ∀ b ∈ bs, p ≤ b.opening := by
  induction h with
  | none => exact List.forall_mem_nil _
  | @next p b bs hp _ _ _ ih =>
    refine List.forall_mem_cons.2 ⟨hp, fun c hc => ?_⟩
    have hstop : b.opening ≤ b.stop := by unfold Placed.stop Placed.start; omega
    exact hp.trans (hstop.trans (ih c hc))

/-- Every block opens behind the closing fences of those before it. -/
theorem pairwise (h : BlockScan raw p bs) : bs.Pairwise fun b c => b.stop ≤ c.opening := by
  induction h with
  | none => exact .nil
  | next _ _ _ hrest ih => exact .cons hrest.le_opening ih

end BlockScan

/-! ### The scan that is made -/

/-- Where a block opens there is a match, at most as far on. -/
theorem OpensAt.exists_matchedIn (h : OpensAt raw i) (hp : p ≤ i) :
    ∃ b x, b.length ≤ i - p ∧ anyBlock.MatchedIn (raw.drop p) b x := by
  obtain ⟨label, body, r, hblock⟩ := h
  obtain ⟨x, hx⟩ := Option.ne_none_iff_exists'.1 (run_of_isBlock hblock)
  refine ⟨(raw.drop p).take (i - p), x, List.length_take_le _ _, raw.drop i, ?_, hx⟩
  rw [← Nat.add_sub_of_le hp, ← List.drop_drop, Nat.add_sub_cancel_left, List.take_append_drop]

theorem le_of_isFirst {b : List Char} {x : List Char × List Char}
    (h : IsFirst (anyBlock.MatchedIn (raw.drop p)) b x) (hp : p ≤ i) (hi : OpensAt raw i) :
    p + b.length ≤ i := by
  obtain ⟨b', x', hlen, hin⟩ := hi.exists_matchedIn hp
  have hle := h.least b' x' hin
  omega

/-- What a match of the scan is, told by places. -/
theorem exists_standsIn {b : List Char}
    (h : IsFirst (anyBlock.MatchedIn (raw.drop p)) b (body, r)) :
    ∃ c : Placed, c.opening = p + b.length ∧ c.body = body ∧ c.StandsIn raw ∧
      raw.drop c.stop = r := by
  obtain ⟨t, ht, hrun⟩ := h.holds
  obtain ⟨label, rest, hline, rfl, hcut⟩ := run_anyBlock_iff.1 hrun
  have hopening : raw.drop (p + b.length) = fence ++ (label ++ '\n' :: rest) := by
    rw [← List.drop_drop, ht, List.drop_left]
  let c : Placed := ⟨p + b.length, label, body⟩
  have hstart : raw.drop c.start = rest := by
    change raw.drop (p + b.length + (fence.length + (label.length + 1))) = rest
    rw [← List.drop_drop, hopening, ← List.drop_drop, List.drop_left, ← List.drop_drop,
      List.drop_left, List.drop_succ_cons, List.drop_zero]
  have hstop : raw.drop c.stop = r := by
    change raw.drop (c.start + (body.length + fence.length)) = r
    rw [← List.drop_drop, hstart, eq_append_of_cut hcut, ← List.drop_drop, List.drop_left,
      List.drop_left]
  refine ⟨c, rfl, rfl, ⟨hline, ?_, ?_⟩, hstop⟩
  · rw [hstart]
    exact hopening
  · rw [hstart, hstop]
    exact (cut_eq_some_iff (by decide)).1 hcut

/-- The scan that finds the bodies, by induction along it. -/
theorem exists_blockScan (raw : List Char) (p : Nat) :
    ∃ bs, BlockScan raw p bs ∧ bs.map (·.body) = anyBlock.findAll (raw.drop p) := by
  generalize hs : raw.drop p = s
  induction s using anyBlock.scan_induction generalizing p with
  | missed s h =>
    refine ⟨[], .none fun i hp hi => ?_, (findAll_of_none h).symm⟩
    obtain ⟨b, x, -, hin⟩ := hi.exists_matchedIn hp
    exact find?_eq_none_iff.1 h b x (hs ▸ hin)
  | found s b body r h ih =>
    subst hs
    have hfirst := find?_eq_some_iff.1 h
    obtain ⟨c, hopening, rfl, hc, hr⟩ := exists_standsIn hfirst
    obtain ⟨bs, hbs, hmap⟩ := ih c.stop hr
    refine ⟨c :: bs, .next (by omega) hc (fun i hp hi => ?_) hbs, ?_⟩
    · exact hopening.symm ▸ le_of_isFirst hfirst hp hi
    · rw [List.map_cons, hmap, findAll_of_some h]

/-- The body of the n-th block without the blanks around it, or nothing. -/
def bodyAt (bs : List Placed) (n : Nat) : List Char :=
  ((bs[n]?).map fun b => trim b.body).getD []

/-- What the strategy makes of the blocks that a scan comes to. -/
structure TakesBlocks (raw : List Char) (bs : List Placed) : Prop where
  applies_iff : positional raw ≠ none ↔ bs ≠ []
  sources_eq : ∀ t, positional raw = some t →
    t.logic = bodyAt bs 0 ∧ t.markup = bodyAt bs 1 ∧ t.stylesheet = bodyAt bs 2
  /-- No block reaches into another, and no closing fence opens one. -/
  apart : bs.Pairwise fun b c => b.stop ≤ c.opening

/-- There is one scan of a text, and the sources are its first three blocks. -/
theorem positional_takes_scanned_blocks (raw : List Char) :
    (∃! bs, BlockScan raw 0 bs) ∧ ∀ bs, BlockScan raw 0 bs → TakesBlocks raw bs := by
  obtain ⟨bs, hbs, hmap⟩ := exists_blockScan raw 0
  rw [List.drop_zero] at hmap
  refine ⟨⟨bs, hbs, fun cs hcs => hcs.unique hbs⟩, fun cs hcs => ?_⟩
  obtain rfl := hcs.unique hbs
  refine ⟨?_, fun t ht => ?_, hcs.pairwise⟩
  · rw [positional_ne_none_iff_findAll, ← hmap, Ne, List.map_eq_nil_iff]
  · have hne := positional_ne_none_iff_findAll.1 (Option.ne_none_iff_exists'.2 ⟨t, ht⟩)
    obtain ⟨t', ht', hget⟩ := positional_of_ne_nil hne
    cases ht.symm.trans ht'
    have hbody (k : Kind) : t.get k = bodyAt cs (Kind.order.idxOf k) := by
      rw [hget, ← hmap, List.getElem?_map, Option.map_map]
      rfl
    exact ⟨hbody .logic, hbody .markup, hbody .stylesheet⟩

/-- A fence in a line opens nothing, and the search goes on right behind its first backtick. -/
example : positional "````\na\n```\n```\nb".toList = some ⟨"a".toList, [], []⟩ := by
  decide +kernel

end Mockup.Extraction
