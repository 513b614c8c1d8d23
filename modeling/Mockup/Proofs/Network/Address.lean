import Mathlib.Data.List.TakeWhile
import Mockup.Network.Url.Reader
import Mockup.Proofs.Json.Reading
import Mockup.Proofs.Text.Base64
import Mockup.Proofs.Text.Occurrence
import Mockup.Proofs.Text.Words

/-! Addresses are read back. Of an address of the sixth version the run of zero groups that is left
out is the gap between the two parts that are written. -/

namespace Mockup.Network

open Number Text

/-! ### Digits -/

theorem digitValue?_digitChar {d : Nat} (h : d < 16) : digitValue? d.digitChar = some d := by
  decide +revert

theorem ofDigitsIn?_eq_some_iff {radix n : Nat} {s : List Char} :
    ofDigitsIn? radix s = some n ↔
      ∃ ds, List.Forall₂ (fun c d => digitValue? c = some d ∧ d < radix) s ds ∧
        ds.foldl (fun n d => radix * n + d) 0 = n := by
  unfold ofDigitsIn?
  simp only [Option.bind_eq_bind, Option.bind_eq_some_iff, mapM_eq_some_iff,
    Option.filter_eq_some_iff, decide_eq_true_eq, Option.pure_def, Option.some_inj]

theorem ofDigitsIn?_toDigits {radix : Nat} (hlow : 1 < radix) (hhigh : radix ≤ 16) (n : Nat) :
    ofDigitsIn? radix (Nat.toDigits radix n) = some n := by
  induction n using Nat.strongRecOn with
  | ind n ih =>
    rw [ofDigitsIn?_eq_some_iff]
    by_cases hn : n < radix
    · rw [Nat.toDigits_of_lt_base hn]
      exact ⟨[n], .cons ⟨digitValue?_digitChar (by omega), hn⟩ .nil, by simp⟩
    · obtain ⟨ds, hds, hvalue⟩ :=
        ofDigitsIn?_eq_some_iff.1 (ih (n / radix) (Nat.div_lt_self (by omega) hlow))
      have hmod : n % radix < radix := Nat.mod_lt n (by omega)
      rw [Nat.toDigits_of_base_le hlow (Nat.not_lt.1 hn)]
      refine ⟨ds ++ [n % radix], List.rel_append hds
        (.cons ⟨digitValue?_digitChar (by omega), hmod⟩ .nil), ?_⟩
      rw [List.foldl_append, hvalue]
      exact Nat.div_add_mod n radix

theorem isDigitIn_of_mem_toDigits {radix n : Nat} (hlow : 1 < radix) (hhigh : radix ≤ 16) {c : Char}
    (h : c ∈ Nat.toDigits radix n) : isDigitIn radix c = true := by
  obtain ⟨ds, hds, -⟩ := ofDigitsIn?_eq_some_iff.1 (ofDigitsIn?_toDigits hlow hhigh n)
  obtain ⟨d, -, hd, hlt⟩ := exists_of_mem_left hds c h
  rw [isDigitIn, hd]
  exact decide_eq_true hlt

/-! ### The fourth version -/

namespace IPv4

theorem exists_octets (a : IPv4) : ∃ b c d e : UInt8, a = ⟨#v[b, c, d, e]⟩ := by
  obtain ⟨⟨⟨l⟩, hl⟩⟩ := a
  match l, hl with
  | [b, c, d, e], _ => exact ⟨b, c, d, e, rfl⟩

theorem pieces_text (a : IPv4) :
    pieces '.' a.text = a.octets.toList.map fun o => digits o.toNat := by
  refine List.splitOn_intercalate '.' (fun w hw hc => ?_) ?_
  · obtain ⟨o, -, rfl⟩ := List.mem_map.1 hw
    exact absurd (isDigitIn_of_mem_toDigits (by decide) (by decide) hc) (by decide)
  · obtain ⟨b, c, d, e, rfl⟩ := a.exists_octets
    exact List.cons_ne_nil _ _

theorem dottedParts_text (a : IPv4) :
    dottedParts a.text = a.octets.toList.map fun o => digits o.toNat := by
  obtain ⟨b, c, d, e, rfl⟩ := a.exists_octets
  unfold dottedParts
  rw [pieces_text]
  exact if_neg fun h => Nat.toDigits_ne_nil (Option.some.inj h)

theorem ipv4Number?_digits (o : UInt8) : ipv4Number? (digits o.toNat) = some o.toNat := by
  have hall : ∀ n : Fin 256, ipv4Number? (digits n.val) = some n.val := by decide +kernel
  exact hall ⟨o.toNat, o.toNat_lt⟩

theorem numericAddress?_text (a : IPv4) : numericAddress? a.text = some a := by
  obtain ⟨b, c, d, e, rfl⟩ := a.exists_octets
  have hnumbers : ([b, c, d, e].map fun o => digits o.toNat).mapM ipv4Number? =
      some ([b, c, d, e].map UInt8.toNat) := by
    rw [mapM_eq_some_iff, List.forall₂_map_left_iff, List.forall₂_map_right_iff, List.forall₂_same]
    exact fun o _ => ipv4Number?_digits o
  have hb := b.toNat_lt
  have hc := c.toNat_lt
  have hd := d.toNat_lt
  have he := e.toNat_lt
  have hparts : dottedParts (text ⟨#v[b, c, d, e]⟩) = [b, c, d, e].map fun o => digits o.toNat :=
    dottedParts_text _
  have hrange : (([b, c, d].map UInt8.toNat).any (255 < ·) || twoTo (8 * (4 - 3)) ≤ e.toNat) =
      false := by
    have hpower : twoTo (8 * (4 - 3)) = 256 := rfl
    simp [hpower]
    omega
  have hoctets (n : Nat) (hn : n = ((0 * 256 + b.toNat) * 256 + c.toNat) * 256 + d.toNat) :
      #v[UInt8.ofNat ((n * 256 + e.toNat) / twoTo 24), UInt8.ofNat ((n * 256 + e.toNat) / twoTo 16),
        UInt8.ofNat ((n * 256 + e.toNat) / twoTo 8), UInt8.ofNat ((n * 256 + e.toNat) / twoTo 0)] =
      #v[b, c, d, e] := by
    have hpowers : twoTo 24 = 16777216 ∧ twoTo 16 = 65536 ∧ twoTo 8 = 256 ∧ twoTo 0 = 1 :=
      ⟨rfl, rfl, rfl, rfl⟩
    rw [hpowers.1, hpowers.2.1, hpowers.2.2.1, hpowers.2.2.2,
      Base64.ofNat_eq_of_mod (b := b) (by omega), Base64.ofNat_eq_of_mod (b := c) (by omega),
      Base64.ofNat_eq_of_mod (b := d) (by omega), Base64.ofNat_eq_of_mod (b := e) (by omega)]
  unfold numericAddress?
  rw [hparts, if_neg (by simp), hnumbers]
  change (if (([b, c, d].map UInt8.toNat).any (255 < ·) || twoTo (8 * (4 - 3)) ≤ e.toNat) = true
    then none else some _) = _
  rw [hrange]
  exact congrArg (fun v => some (IPv4.mk v)) (hoctets _ rfl)

theorem endsInNumber_text (a : IPv4) : endsInNumber a.text = true := by
  obtain ⟨b, c, d, e, rfl⟩ := a.exists_octets
  have hparts : dottedParts (text ⟨#v[b, c, d, e]⟩) = [b, c, d, e].map fun o => digits o.toNat :=
    dottedParts_text _
  obtain ⟨hne, hdigits⟩ := Json.isDigits_digits e.toNat
  unfold endsInNumber
  rw [hparts]
  change (!(digits e.toNat).isEmpty && (digits e.toNat).all isDigit || _) = true
  simp [hne, List.all_eq_true.2 hdigits]

theorem mem_text {a : IPv4} {c : Char} (h : c ∈ a.text) : c = '.' ∨ isDigit c = true :=
  (mem_intercalate h).imp_right fun ⟨w, hw, hc⟩ => by
    obtain ⟨o, -, rfl⟩ := List.mem_map.1 hw
    exact (Json.isDigits_digits o.toNat).2 c hc

end IPv4

/-! ### The sixth version -/

namespace IPv6

/-- The digits of a group. -/
def groupText (g : UInt16) : List Char := Nat.toDigits 16 g.toNat

theorem group?_groupText (g : UInt16) : group? (groupText g) = some g := by
  have hlength : (Nat.toDigits 16 g.toNat).length ≤ 4 :=
    (Nat.length_toDigits_le_iff (by decide) (by decide)).2 g.toNat_lt
  have hne : (Nat.toDigits 16 g.toNat).isEmpty = false := by simp [Nat.toDigits_ne_nil]
  unfold group? groupText
  rw [hne, if_neg (by simpa using hlength), ofDigitsIn?_toDigits (by decide) (by decide),
    Option.map_some, UInt16.ofNat_toNat]

theorem colon_notMem_groupText (g : UInt16) : ':' ∉ groupText g := fun hc =>
  absurd (isDigitIn_of_mem_toDigits (by decide) (by decide) hc) (by decide)

theorem groups?_map (embedded : Bool) (gs : List UInt16) :
    groups? embedded (gs.map groupText) = some gs := by
  induction gs with
  | nil => rfl
  | cons g gs ih =>
    cases gs with
    | nil => rw [List.map_singleton, groups?, group?_groupText]
    | cons h gs =>
      rw [List.map_cons, List.map_cons, groups?, group?_groupText, ← List.map_cons, ih]
      · rfl
      · exact List.cons_ne_nil _ _

theorem groups?_pieces (embedded : Bool) {gs : List UInt16} (h : gs ≠ []) :
    groups? embedded (pieces ':' (groupsText gs)) = some gs := by
  have hpieces : pieces ':' (groupsText gs) = gs.map groupText := by
    refine List.splitOn_intercalate ':' (fun w hw => ?_) (by simpa using h)
    obtain ⟨g, -, rfl⟩ := List.mem_map.1 hw
    exact colon_notMem_groupText g
  rw [hpieces, groups?_map]

theorem groupsText_cons_cons (g h : UInt16) (gs : List UInt16) :
    groupsText (g :: h :: gs) = groupText g ++ ':' :: groupsText (h :: gs) := by
  unfold groupsText
  rw [List.map_cons, List.map_cons, List.intercalate_cons_cons, List.append_assoc]
  rfl

theorem groupsText_singleton (g : UInt16) : groupsText [g] = groupText g :=
  List.intercalate_singleton

theorem exists_groupsText_cons (g : UInt16) (gs : List UInt16) :
    ∃ c s, groupsText (g :: gs) = c :: s ∧ c ≠ ':' := by
  obtain ⟨c, s, hs⟩ : ∃ c s, groupText g = c :: s :=
    List.exists_cons_of_ne_nil Nat.toDigits_ne_nil
  have hc : c ≠ ':' := by
    rintro rfl
    exact colon_notMem_groupText g (hs ▸ List.mem_cons_self)
  cases gs with
  | nil =>
    rw [groupsText_singleton, hs]
    exact ⟨c, s, rfl, hc⟩
  | cons h gs =>
    rw [groupsText_cons_cons, hs]
    exact ⟨c, _, rfl, hc⟩

/-- No two colons in a row start in a text of groups. -/
theorem cut_groupsText (gs : List UInt16) (s : List Char) :
    cut [':', ':'] (groupsText gs ++ s) =
      (cut [':', ':'] s).map fun (b, r) => (groupsText gs ++ b, r) := by
  induction gs with
  | nil =>
    change cut [':', ':'] s = _
    cases cut [':', ':'] s <;> rfl
  | cons g gs ih =>
    cases gs with
    | nil =>
      rw [groupsText_singleton]
      exact cut_append_of_notMem (colon_notMem_groupText g) s
    | cons h gs =>
      obtain ⟨c, t, ht, hc⟩ := exists_groupsText_cons h gs
      have hcolon : ¬ [':', ':'] <+: ':' :: (groupsText (h :: gs) ++ s) := by
        rw [ht]
        intro hp
        exact hc (List.cons_prefix_cons.1 (List.cons_prefix_cons.1 hp).2).1.symm
      rw [groupsText_cons_cons, List.append_assoc,
        cut_append_of_notMem (colon_notMem_groupText g), List.cons_append, cut_cons hcolon, ih,
        Option.map_map, Option.map_map]
      cases cut [':', ':'] s <;> simp

theorem longestGap_run (gs : List UInt16) :
    (longestGap gs).2 ≤ ((gs.drop (longestGap gs).1).takeWhile (· == 0)).length := by
  refine List.foldlRecOn (motive := fun best : Nat × Nat =>
    best.2 ≤ ((gs.drop best.1).takeWhile (· == 0)).length) _ _ (Nat.zero_le _) ?_
  intro best h i _
  dsimp only
  split_ifs
  · exact Nat.le_refl _
  · exact h

/-- What is left out are zeros. -/
theorem longestGap_split (gs : List UInt16) :
    gs.take (longestGap gs).1 ++ List.replicate (longestGap gs).2 0 ++
      gs.drop ((longestGap gs).1 + (longestGap gs).2) = gs := by
  have hrun := longestGap_run gs
  generalize (longestGap gs).1 = start, (longestGap gs).2 = n at hrun
  have hzeros : (gs.drop start).take n = List.replicate n 0 := by
    rw [List.eq_replicate_iff, List.length_take]
    have hprefix := List.takeWhile_prefix (l := gs.drop start) (· == 0)
    refine ⟨Nat.min_eq_left (hrun.trans hprefix.length_le), fun g hg => ?_⟩
    have hmem : g ∈ (gs.drop start).takeWhile (· == 0) := by
      rw [List.prefix_iff_eq_take.1 hprefix]
      exact (List.take_prefix_take_left hrun).subset hg
    simpa using List.mem_takeWhile_imp hmem
  rw [← hzeros, ← List.drop_drop, List.append_assoc, List.take_append_drop,
    List.take_append_drop]

theorem vector?_toList (a : IPv6) : vector? 8 a.groups.toList = some a.groups := by
  unfold vector?
  rw [dif_pos a.groups.length_toList]
  rfl

/-- The groups on one side of a gap, of which there may be none. -/
theorem side_groupsText (embedded : Bool) (gs : List UInt16) :
    (if (groupsText gs).isEmpty then some [] else groups? embedded (pieces ':' (groupsText gs))) =
      some gs := by
  cases gs with
  | nil => rfl
  | cons g gs =>
    obtain ⟨c, s, hs, -⟩ := exists_groupsText_cons g gs
    have hempty : (groupsText (g :: gs)).isEmpty = false := by rw [hs, List.isEmpty_cons]
    rw [if_neg (by simp [hempty]), groups?_pieces embedded (List.cons_ne_nil g gs)]

theorem ofText?_groupsText (a : IPv6) : ofText? (groupsText a.groups.toList) = some a := by
  have hne : a.groups.toList ≠ [] := List.ne_nil_of_length_pos (by simp)
  have hcut := cut_groupsText a.groups.toList []
  rw [List.append_nil] at hcut
  unfold ofText?
  rw [hcut]
  change (groups? true _).bind _ = _
  rw [groups?_pieces true hne]
  change (vector? 8 a.groups.toList).bind _ = _
  rw [vector?_toList]
  rfl

/-- The gap is filled with as many zeros as groups are missing. -/
theorem ofText?_gap {a : IPv6} {start n : Nat} (hn : n ≠ 0)
    (hsplit : a.groups.toList.take start ++ List.replicate n 0 ++
      a.groups.toList.drop (start + n) = a.groups.toList) :
    ofText? (groupsText (a.groups.toList.take start) ++ [':', ':'] ++
      groupsText (a.groups.toList.drop (start + n))) = some a := by
  have hlength := congrArg List.length hsplit
  simp only [List.length_append, List.length_replicate, Vector.length_toList] at hlength
  have hcut := cut_groupsText (a.groups.toList.take start)
    ([':', ':'] ++ groupsText (a.groups.toList.drop (start + n)))
  rw [cut_append, Option.map_some] at hcut
  dsimp only at hcut
  rw [List.append_nil, ← List.append_assoc] at hcut
  unfold ofText?
  rw [hcut]
  dsimp only
  rw [side_groupsText, side_groupsText, Option.bind_eq_bind, Option.bind_some,
    Option.bind_eq_bind, Option.bind_some]
  have hmissing : 8 - ((a.groups.toList.take start).length +
      (a.groups.toList.drop (start + n)).length) = n := by
    omega
  rw [hmissing, if_neg (by omega), hsplit]
  change (vector? 8 a.groups.toList).bind _ = _
  rw [vector?_toList]
  rfl

theorem ofText?_text (a : IPv6) : ofText? a.text = some a := by
  unfold text
  dsimp only
  split_ifs with hgap
  · exact ofText?_groupsText a
  · exact ofText?_gap (by omega) (longestGap_split a.groups.toList)

theorem mem_text {a : IPv6} {c : Char} (h : c ∈ a.text) : c = ':' ∨ isDigitIn 16 c = true := by
  have hgroups {gs : List UInt16} (h : c ∈ groupsText gs) : c = ':' ∨ isDigitIn 16 c = true :=
    (mem_intercalate h).imp_right fun ⟨w, hw, hc⟩ => by
      obtain ⟨g, -, rfl⟩ := List.mem_map.1 hw
      exact isDigitIn_of_mem_toDigits (by decide) (by decide) hc
  unfold text at h
  dsimp only at h
  split_ifs at h
  · exact hgroups h
  · simp only [List.mem_append, List.mem_cons, List.not_mem_nil, or_false, or_self] at h
    rcases h with (h | h) | h
    · exact hgroups h
    · exact .inl h
    · exact hgroups h

end IPv6

end Mockup.Network
