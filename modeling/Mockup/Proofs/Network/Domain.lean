import Mathlib.Data.Bool.AllAny
import Mockup.Network.Domain
import Mockup.Proofs.Network.Punycode
import Mockup.Proofs.Text.Composition
import Mockup.Proofs.Text.Occurrence

/-! The looked-up form of a name is its own looked-up form: it is in small letters of ASCII, and
each of its labels is read as the label that it was written for. -/

namespace Mockup.Network.Domain

open Text

/-! ### Small letters -/

theorem isSmall_table : ∀ part ∈ mappingTable, IsSmall part.toList := by
  have hall : mappingTable.all (fun part => part.toList.all fun c => !c.isUpper) = true := by
    unfold mappingTable
    simp only [List.all_cons, List.all_nil, Bool.and_true, Bool.and_eq_true]
    refine ⟨?_, ?_, ?_, ?_⟩ <;>
      rw [String.toList_ofList] <;>
      decide +kernel
  intro part hpart c hc
  simpa using List.all_eq_true.1 (List.all_eq_true.1 hall part hpart) c hc

theorem mem_of_mem_readMapping {x : Nat × List Char} {n : Nat} {ws : List (List Char)}
    (h : x ∈ readMapping n ws) : x.2 ∈ ws := by
  fun_induction readMapping n ws with
  | case1 => cases h
  | case2 n ws ih => exact List.mem_cons_of_mem _ (ih h)
  | case3 n d ds ws ih => exact List.mem_cons_of_mem _ (ih h)
  | case4 n w ws _ _ ih =>
    rcases List.mem_cons.1 h with rfl | h
    · exact List.mem_cons_self
    · exact List.mem_cons_of_mem _ (ih h)

theorem isSmall_mapping {x : Nat × List Char} (h : x ∈ mapping) : IsSmall x.2 := by
  obtain ⟨part, hpart, hw⟩ := List.mem_flatMap.1 (mem_of_mem_readMapping h)
  exact fun c hc => isSmall_table part hpart c (mem_of_mem_words hw hc)

theorem isSmall_of_standsFor? {c : Char} {w : List Char} (h : standsFor? c = some w) :
    IsSmall w := by
  unfold standsFor? at h
  split_ifs at h with hascii
  · rw [← Option.some.inj h]
    exact isSmall_singleton (isUpper_toLower c)
  · rw [← Option.some.inj h]
    exact List.forall_mem_nil _
  · rw [← Option.some.inj h]
    cases hlookup : mapping.lookup c.toNat with
    | none => exact isSmall_singleton (isUpper_of_lt (by omega))
    | some w =>
      obtain ⟨l₁, l₂, hsplit, -⟩ := List.lookup_eq_some_iff.1 hlookup
      have hmem : (c.toNat, w) ∈ mapping := hsplit ▸ List.mem_append_right l₁ List.mem_cons_self
      exact isSmall_mapping hmem

theorem isSmall_folded {s name : List Char} (h : folded? s = some name) : IsSmall name := by
  unfold folded? at h
  split_ifs at h
  · rw [← Option.some.inj h]
    exact isSmall_map_toLower s
  · obtain ⟨ws, hws, rfl⟩ := Option.map_eq_some_iff.1 h
    refine Composition.isSmall_compose fun c hc => ?_
    obtain ⟨w, hw, hc⟩ := List.mem_flatten.1 hc
    obtain ⟨d, -, hd⟩ := exists_of_mem_left (mapM_eq_some_iff.1 hws).flip w hw
    exact isSmall_of_standsFor? hd c hc

/-! ### Labels -/

variable {label piece : List Char}

theorem isSmall_of_isSound (h : isSound label = true) : IsSmall label := by
  intro c hc
  have hall : label.all (fun c => standsFor? c = some [c]) = true := by
    unfold isSound at h
    simp only [Bool.and_eq_true] at h
    exact h.1.1.1.1
  exact isSmall_of_standsFor? (of_decide_eq_true (List.all_eq_true.1 hall c hc)) c
    List.mem_cons_self

/-- The written form of a label, by which the label is known. -/
structure Writes (w label : List Char) : Prop where
  isAscii : isAscii w = true
  isSmall : IsSmall w
  no_dot : '.' ∉ w
  reads : label? w = some label

theorem unwritten?_eq_some_iff : unwritten? piece = some label ↔
    ∃ r, piece = sign ++ r ∧ Punycode.decode? r = some label ∧ isAscii label = false ∧
      isSound label = true := by
  unfold unwritten?
  simp only [Option.bind_eq_bind, Option.bind_eq_some_iff, past?_eq_some_iff]
  refine exists_congr fun r => and_congr_right fun _ => ?_
  constructor
  · rintro ⟨u, hu, h⟩
    split_ifs at h with hif
    cases h
    simpa [hu] using hif
  · rintro ⟨hu, hascii, hsound⟩
    exact ⟨label, hu, by simp [hascii, hsound]⟩

/-- A label beyond ASCII that is sound. -/
theorem writes_sign (hascii : isAscii label = false) (hsound : isSound label = true)
    (hdot : '.' ∉ label) : Writes (sign ++ Punycode.encode label) label where
  isAscii := by
    refine List.all_eq_true.2 fun c hc => ?_
    rcases List.mem_append.1 hc with hc | hc
    · exact List.all_eq_true.1 (by decide : Domain.isAscii sign = true) c hc
    · rcases Punycode.mem_encode hc with ⟨-, hc⟩ | rfl | hc
      · exact decide_eq_true hc
      · decide
      · have := Punycode.toNat_of_isDigit hc
        exact decide_eq_true (by omega)
  isSmall := by
    refine .append (List.all_iff_forall_prop.1 (by decide)) fun c hc => ?_
    rcases Punycode.mem_encode hc with ⟨hc, -⟩ | rfl | hc
    · exact isSmall_of_isSound hsound c hc
    · decide
    · have := Punycode.toNat_of_isDigit hc
      rw [← Bool.not_eq_true, isUpper_iff]
      omega
  no_dot := by
    rw [List.mem_append, not_or]
    refine ⟨by decide, fun hc => ?_⟩
    rcases Punycode.mem_encode hc with ⟨hc, -⟩ | hc | hc
    · exact hdot hc
    · cases hc
    · cases hc
  reads := by
    have hprefix : sign.isPrefixOf (sign ++ Punycode.encode label) = true :=
      List.isPrefixOf_iff_prefix.2 (List.prefix_append _ _)
    rw [label?, if_pos hprefix]
    exact unwritten?_eq_some_iff.2 ⟨_, rfl, Punycode.decode?_encode label, hascii, hsound⟩

theorem writes_written (hsmall : IsSmall piece) (hdot : '.' ∉ piece)
    (h : label? piece = some label) : Writes (written label) label := by
  have hsign (w : List Char) (hw : '.' ∉ w) (hu : unwritten? w = some label) :
      Writes (written label) label := by
    obtain ⟨r, rfl, hdecode, hascii, hsound⟩ := unwritten?_eq_some_iff.1 hu
    rw [written, if_neg (by simp [hascii])]
    refine writes_sign hascii hsound fun hc => ?_
    rcases Punycode.mem_of_decode? hdecode hc with hc | hc
    · exact hw (List.mem_append_right sign hc)
    · revert hc
      decide
  unfold label? at h
  split_ifs at h with hprefix hascii hwritten
  · exact hsign piece hdot h
  · cases h
    rw [written, if_pos hascii]
    refine ⟨hascii, hsmall, hdot, ?_⟩
    rw [label?, if_neg hprefix, if_pos hascii]
  · cases h
    obtain ⟨-, -, -, hbeyond, hsound⟩ := unwritten?_eq_some_iff.1 hwritten
    rw [written, if_neg hascii]
    exact writes_sign hbeyond hsound hdot

/-! ### Names -/

variable {s name : List Char}

theorem label?_pieces {labels : List (List Char)} (hsmall : IsSmall s)
    (h : (pieces '.' s).mapM label? = some labels) : ∀ l ∈ labels, Writes (written l) l := by
  intro l hl
  obtain ⟨p, hp, hread⟩ := exists_of_mem_left (mapM_eq_some_iff.1 h).flip l hl
  exact writes_written (fun c hc => hsmall c (mem_of_mem_splitOn hp hc).1)
    (fun hc => (mem_of_mem_splitOn hp hc).2 rfl) hread

/-- A name in the form in which it is looked up. -/
structure Canonical (name : List Char) : Prop where
  isAscii : isAscii name = true
  isSmall : IsSmall name
  allowed : ∀ c ∈ name, isForbidden c = false
  reads : toAscii? name = some name

/-- A name in small letters is its own looked-up form, if it is made of the written forms of its
labels. -/
theorem Canonical.of_labels {labels : List (List Char)} (hascii : Domain.isAscii name = true)
    (hsmall : IsSmall name) (hallowed : ∀ c ∈ name, isForbidden c = false)
    (hreads : (pieces '.' name).mapM label? = some labels)
    (hdirection : ¬ (!labels.all Domain.isAscii && !Direction.allows labels) = true)
    (hname : ['.'].intercalate (labels.map written) = name) : Canonical name := by
  refine ⟨hascii, hsmall, hallowed, ?_⟩
  unfold toAscii? folded?
  rw [if_pos hascii, hsmall.map_toLower, Option.bind_eq_bind, Option.bind_some, hreads,
    Option.bind_eq_bind, Option.bind_some, if_neg hdirection, hname]
  refine if_neg fun hany => ?_
  obtain ⟨c, hc, hforbidden⟩ := List.any_eq_true.1 hany
  rw [hallowed c hc] at hforbidden
  cases hforbidden

/-- A name of plain labels. -/
theorem canonical_of_plain (hascii : isAscii name = true) (hsmall : IsSmall name)
    (hallowed : ∀ c ∈ name, isForbidden c = false)
    (hplain : ∀ l ∈ pieces '.' name, ¬ sign <+: l) : Canonical name := by
  have hlabel (l : List Char) (hl : l ∈ pieces '.' name) : isAscii l = true :=
    List.all_eq_true.2 fun c hc => List.all_eq_true.1 hascii c (mem_of_mem_splitOn hl hc).1
  have hreads : (pieces '.' name).mapM label? = some (pieces '.' name) := by
    rw [mapM_eq_some_iff, List.forall₂_same]
    intro l hl
    rw [label?, if_neg (by simpa using hplain l hl), if_pos (hlabel l hl)]
  have hall : (pieces '.' name).all isAscii = true := List.all_eq_true.2 hlabel
  refine .of_labels hascii hsmall hallowed hreads (by simp [hall]) ?_
  have hwritten : (pieces '.' name).map written = pieces '.' name :=
    (List.map_congr_left fun l hl => if_pos (hlabel l hl)).trans (List.map_id _)
  rw [hwritten]
  exact List.intercalate_splitOn '.'

/-- What holds of dots and of the written forms of labels holds of the name. -/
theorem forall_mem_intercalate_written {P : Char → Prop} {labels : List (List Char)} (hdot : P '.')
    (h : ∀ l ∈ labels, ∀ c ∈ written l, P c) :
    ∀ c ∈ ['.'].intercalate (labels.map written), P c := by
  intro c hc
  rcases mem_intercalate hc with rfl | ⟨w, hw, hc⟩
  · exact hdot
  · obtain ⟨l, hl, rfl⟩ := List.mem_map.1 hw
    exact h l hl c hc

theorem canonical_of_toAscii? (h : toAscii? s = some name) : Canonical name := by
  obtain ⟨f, hf, h⟩ := Option.bind_eq_some_iff.1 h
  obtain ⟨labels, hlabels, h⟩ := Option.bind_eq_some_iff.1 h
  dsimp only at h
  split_ifs at h with hdirection hforbidden
  obtain rfl := Option.some.inj h
  have hwrites := label?_pieces (isSmall_folded hf) hlabels
  have hne : labels.map written ≠ [] := by
    intro hnil
    rw [List.map_eq_nil_iff.1 hnil] at hlabels
    exact List.splitOn_ne_nil '.' f (List.forall₂_nil_right_iff.1 (mapM_eq_some_iff.1 hlabels))
  have hpieces : pieces '.' (['.'].intercalate (labels.map written)) = labels.map written := by
    refine List.splitOn_intercalate '.' (fun w hw => ?_) hne
    obtain ⟨l, hl, rfl⟩ := List.mem_map.1 hw
    exact (hwrites l hl).no_dot
  have hreads : (labels.map written).mapM label? = some labels := by
    rw [mapM_eq_some_iff, List.forall₂_map_left_iff, List.forall₂_same]
    exact fun l hl => (hwrites l hl).reads
  refine .of_labels ?_ ?_ (fun c hc => ?_) (by rw [hpieces, hreads]) hdirection rfl
  · exact List.all_eq_true.2 (forall_mem_intercalate_written (by decide) fun l hl =>
      List.all_eq_true.1 (hwrites l hl).isAscii)
  · exact forall_mem_intercalate_written (by decide) fun l hl => (hwrites l hl).isSmall
  · rw [← Bool.not_eq_true]
    exact fun hc' => hforbidden (List.any_eq_true.2 ⟨c, hc, hc'⟩)

end Mockup.Network.Domain
