import Mockup.Proofs.Extraction.BlockScan
import Mockup.Proofs.Extraction.Header
import Mockup.Proofs.Text.Continuation

/-! Blocks of a text that goes on. What is put behind a text may complete a line or end a block that
was open, but it takes no block away that was there, and puts none in front of one. -/

namespace Mockup.Extraction

open Text Matcher

variable {raw s t r body : List Char} {k : Kind} {p : Nat}

/-! ### The lines that open blocks -/

theorem header_isLocal (k : Kind) : (header k).IsLocal :=
  isLocal_of_run_iff fun _ _ _ => run_header_iff

theorem suffix_of_anyLabel (s : List Char) (u : Unit) (r : List Char)
    (h : afterAnyLabel s = some (u, r)) : r <:+ s := suffix_afterAnyLabel h

/-- The beginning of a block with any label. -/
def opening : Matcher Unit := openFence.andThen afterAnyLabel suffix_of_anyLabel

theorem anyBlock_eq : anyBlock = opening.upTo fence := rfl

theorem opening_opensWith : opening.OpensWith fence := openFence_opensWith.andThen _

theorem run_opening_iff {u : Unit} : opening.run s = some (u, r) ↔
    ∃ l, (∃ b : Block, l = fence ++ (b.label ++ ['\n'])) ∧ s = l ++ r := by
  constructor
  · intro h
    simp only [opening, openFence, run_andThen, run_literal, Option.bind_eq_some_iff,
      Option.map_eq_some_iff] at h
    obtain ⟨x, ⟨w, hw, rfl⟩, hlabel⟩ := h
    obtain ⟨label, hline, hs⟩ := exists_label_of_afterAnyLabel hlabel
    let b : Block := ⟨label, [], hline, by decide⟩
    refine ⟨_, ⟨b, rfl⟩, ?_⟩
    rw [past?_eq_some_iff.1 hw]
    simp only at hs
    simp [b, hs]
  · rintro ⟨l, ⟨b, rfl⟩, rfl⟩
    simp only [opening, List.append_assoc, List.singleton_append]
    rw [run_andThen, run_openFence, Option.bind_some, b.afterAnyLabel_label]

theorem opening_isApart : opening.IsApart := by
  refine isApart_of_line opening_opensWith fun s u r h => ?_
  obtain ⟨l, ⟨b, rfl⟩, rfl⟩ := run_opening_iff.1 h
  exact ⟨b, rfl⟩

theorem opening_isLocal : opening.IsLocal := isLocal_of_run_iff fun _ _ _ => run_opening_iff

/-! ### Blocks that stay -/

theorem find?_labelledBlock_append {before after : List Char}
    (h : (labelledBlock k).find? raw = some (before, body, after)) (t : List Char) :
    (labelledBlock k).find? (raw ++ t) = some (before, body, after ++ t) := by
  rw [labelledBlock_eq] at h ⊢
  exact find?_upTo_append_right (header_isApart k) (header_isLocal k) (header_opensWith k)
    (by decide) h t

theorem labelledBody_append {b : List Char} (h : labelledBody raw k = some b) (t : List Char) :
    labelledBody (raw ++ t) k = some b := by
  obtain ⟨⟨before, body, after⟩, hfind, rfl⟩ := Option.map_eq_some_iff.1 h
  rw [labelledBody, find?_labelledBlock_append hfind, Option.map_some]

theorem find?_anyBlock_append {before after : List Char}
    (h : anyBlock.find? raw = some (before, body, after)) (t : List Char) :
    anyBlock.find? (raw ++ t) = some (before, body, after ++ t) := by
  rw [anyBlock_eq] at h ⊢
  exact find?_upTo_append_right opening_isApart opening_isLocal opening_opensWith (by decide) h t

theorem findAll_anyBlock_prefix (raw t : List Char) :
    anyBlock.findAll raw <+: anyBlock.findAll (raw ++ t) := by
  rw [anyBlock_eq]
  exact findAll_upTo_prefix opening_isApart opening_isLocal opening_opensWith (by decide) raw t

/-- A block ends inside the text. -/
theorem Placed.StandsIn.stop_le {b : Placed} (h : b.StandsIn raw) : b.stop ≤ raw.length := by
  have hlen := congrArg List.length h.body_first.holds
  simp only [List.length_append, List.length_drop] at hlen
  have hfence : 0 < fence.length := by decide
  have hstop : b.stop = b.start + (b.body.length + fence.length) := rfl
  omega

/-- A block keeps its place. -/
theorem Placed.StandsIn.append {b : Placed} (h : b.StandsIn raw) (t : List Char) :
    b.StandsIn (raw ++ t) := by
  have hstop := h.stop_le
  have hstart : b.start ≤ raw.length := by
    unfold stop at hstop
    omega
  have hopening : b.opening ≤ raw.length := by
    unfold start at hstart
    omega
  refine ⟨h.label_line, ?_, ?_⟩
  · rw [List.drop_append_of_le_length hopening, List.drop_append_of_le_length hstart, h.line_eq]
    simp
  · have hcut := (cut_eq_some_iff (by decide)).2 h.body_first
    rw [List.drop_append_of_le_length hstart, List.drop_append_of_le_length hstop]
    exact (cut_eq_some_iff (by decide)).1 (cut_append_right (by decide) hcut t)

/-- The scan comes to the same blocks, by induction along it. -/
theorem exists_blockScan_append (raw t : List Char) (p : Nat) (hp : p ≤ raw.length) :
    ∃ bs cs, BlockScan raw p bs ∧ BlockScan (raw ++ t) p cs ∧ bs <+: cs := by
  generalize hs : raw.drop p = s
  induction s using anyBlock.scan_induction generalizing p with
  | missed s h =>
    obtain ⟨bs, hbs, hmap⟩ := exists_blockScan raw p
    obtain ⟨cs, hcs, -⟩ := exists_blockScan (raw ++ t) p
    rw [hs, findAll_of_none h, List.map_eq_nil_iff] at hmap
    exact ⟨bs, cs, hbs, hcs, hmap ▸ List.nil_prefix⟩
  | found s before body r h ih =>
    subst hs
    have hfirst := find?_eq_some_iff.1 h
    have hfirst' := find?_eq_some_iff.1 (find?_anyBlock_append h t)
    rw [← List.drop_append_of_le_length hp] at hfirst'
    obtain ⟨b, hopening, -, hb, hr⟩ := exists_standsIn hfirst
    obtain ⟨bs, cs, hbs, hcs, hprefix⟩ := ih b.stop hb.stop_le hr
    refine ⟨b :: bs, b :: cs, .next (by omega) hb (fun i hi ho => ?_) hbs,
      .next (by omega) (hb.append t) (fun i hi ho => ?_) hcs,
      List.cons_prefix_cons.2 ⟨rfl, hprefix⟩⟩
    · exact hopening.symm ▸ le_of_isFirst hfirst hi ho
    · exact hopening.symm ▸ le_of_isFirst hfirst' hi ho

/-! ### Both strategies -/

/-- What was found in a text is found, in the same place, where more text follows. -/
structure KeepsBlocks (raw t : List Char) : Prop where
  labelled : ∀ k before body after, (labelledBlock k).find? raw = some (before, body, after) →
    (labelledBlock k).find? (raw ++ t) = some (before, body, after ++ t)
  tagged : ∀ s, tagged raw = some s → ∃ s', tagged (raw ++ t) = some s' ∧
    ∀ k, labelledBody raw k ≠ none → s'.get k = s.get k
  bodies : anyBlock.findAll raw <+: anyBlock.findAll (raw ++ t)
  scanned : ∀ bs cs, BlockScan raw 0 bs → BlockScan (raw ++ t) 0 cs → bs <+: cs
  positional : ∀ s, positional raw = some s → ∃ s', positional (raw ++ t) = some s' ∧
    ∀ k, Kind.order.idxOf k < (anyBlock.findAll raw).length → s'.get k = s.get k

/-- Text put behind does not change what was recovered before it: not the first block of a kind, not
the sequence of all blocks, and not the sources that either strategy made of them. -/
theorem blocks_keep (raw t : List Char) : KeepsBlocks raw t := by
  refine ⟨fun k before body after h => find?_labelledBlock_append h t, fun s hs => ?_,
    findAll_anyBlock_prefix raw t, fun bs cs hbs hcs => ?_, fun s hs => ?_⟩
  · obtain ⟨j, hj⟩ := tagged_ne_none_iff.1 (Option.ne_none_iff_exists'.2 ⟨s, hs⟩)
    obtain ⟨s₀, hs₀, hget⟩ := tagged_of_body hj
    cases hs.symm.trans hs₀
    obtain ⟨b, hb⟩ := Option.ne_none_iff_exists'.1 hj
    have hj' : labelledBody (raw ++ t) j ≠ none := by simp [labelledBody_append hb]
    obtain ⟨s', hs', hget'⟩ := tagged_of_body hj'
    refine ⟨s', hs', fun k hk => ?_⟩
    obtain ⟨c, hc⟩ := Option.ne_none_iff_exists'.1 hk
    rw [hget, hget', hc, labelledBody_append hc]
  · obtain ⟨bs', cs', hbs', hcs', hprefix⟩ := exists_blockScan_append raw t 0 (Nat.zero_le _)
    rwa [hbs.unique hbs', hcs.unique hcs']
  · obtain ⟨more, hmore⟩ := findAll_anyBlock_prefix raw t
    have hne := positional_ne_none_iff_findAll.1 (Option.ne_none_iff_exists'.2 ⟨s, hs⟩)
    obtain ⟨s₀, hs₀, hget⟩ := positional_of_ne_nil hne
    cases hs.symm.trans hs₀
    have hne' : anyBlock.findAll (raw ++ t) ≠ [] := by simp [← hmore, hne]
    obtain ⟨s', hs', hget'⟩ := positional_of_ne_nil hne'
    refine ⟨s', hs', fun k hk => ?_⟩
    rw [hget, hget', ← hmore, List.getElem?_append_left hk]

/-- A block, and behind it the beginning of a fence. -/
def cutShort : List Char := "```html\nx\n```\n``".toList

/-- The rest of the fence opens a block of a kind that counts before. -/
theorem blocks_keep_cutShort :
    tagged cutShort = some ⟨[], "x".toList, []⟩ ∧
      ∃ s, tagged (cutShort ++ "`ts\ny\n```".toList) = some s ∧ s.markup = "x".toList := by
  have hshort : tagged cutShort = some ⟨[], "x".toList, []⟩ := by decide +kernel
  obtain ⟨s, hs, hget⟩ := (blocks_keep cutShort "`ts\ny\n```".toList).tagged _ hshort
  exact ⟨hshort, s, hs, hget .markup (by decide +kernel)⟩

end Mockup.Extraction
