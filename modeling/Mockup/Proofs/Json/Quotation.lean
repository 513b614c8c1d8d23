import Mathlib.Data.List.Basic
import Mathlib.Tactic.SplitIfs
import Mockup.Proofs.Json.Text
import Mockup.Proofs.Text.Words

/-! The reader of strings. It reads every way to write a string as that string, and what it takes
off a text is a way to write the string that it returns. -/

namespace Mockup.Json

/-! ### Hexadecimal digits -/

/-- A character by its distance from an earlier one. -/
theorem ofNat_add_sub {c : Char} {a : Nat} (h : a ≤ c.toNat) :
    Char.ofNat (a + (c.toNat - a)) = c := by
  rw [Nat.add_sub_cancel' h, Char.ofNat_toNat]

theorem isHexDigit_of_digitValue? {c : Char} {n : Nat} (h : Number.digitValue? c = some n) :
    IsHexDigit c n := by
  have below (k : Nat) (hk : k < 10) :
      "0123456789abcdef".toList[k]? = some (Char.ofNat (48 + k)) := by decide +revert
  have lower (k : Nat) (hk : k < 6) :
      "0123456789abcdef".toList[10 + k]? = some (Char.ofNat (97 + k)) := by decide +revert
  have upper (k : Nat) (hk : k < 6) :
      "0123456789ABCDEF".toList[10 + k]? = some (Char.ofNat (65 + k)) := by decide +revert
  have span (a b : Char) : (decide (a ≤ c) && decide (c ≤ b)) = true ↔
      a.toNat ≤ c.toNat ∧ c.toNat ≤ b.toNat := by
    rw [Bool.and_eq_true, decide_eq_true_iff, decide_eq_true_iff]
    rfl
  unfold Number.digitValue? at h
  simp only [span, Char.reduceToNat] at h
  split_ifs at h with hdigit hsmall hlarge <;> obtain rfl := Option.some.inj h
  · left
    rw [below _ (by omega), ofNat_add_sub hdigit.1]
  · left
    rw [show c.toNat - 87 = 10 + (c.toNat - 97) by omega, lower _ (by omega),
      ofNat_add_sub hsmall.1]
  · right
    rw [show c.toNat - 55 = 10 + (c.toNat - 65) by omega, upper _ (by omega),
      ofNat_add_sub hlarge.1]

theorem digitValue?_of_isHexDigit {c : Char} {n : Nat} (h : IsHexDigit c n) :
    n < 16 ∧ Number.digitValue? c = some n := by
  have lower (k : Nat) (hk : k < 16) :
      Number.digitValue? ("0123456789abcdef".toList.get ⟨k, hk⟩) = some k := by decide +revert
  have upper (k : Nat) (hk : k < 16) :
      Number.digitValue? ("0123456789ABCDEF".toList.get ⟨k, hk⟩) = some k := by decide +revert
  rcases h with h | h <;> obtain ⟨hn, rfl⟩ := List.getElem?_eq_some_iff.1 h
  · exact ⟨hn, lower n hn⟩
  · exact ⟨hn, upper n hn⟩

theorem filter_digitValue?_iff {c : Char} {n : Nat} :
    (Number.digitValue? c).filter (· < 16) = some n ↔ IsHexDigit c n := by
  rw [Option.filter_eq_some_iff, decide_eq_true_iff]
  exact ⟨fun h => isHexDigit_of_digitValue? h.1, fun h => (digitValue?_of_isHexDigit h).symm⟩

theorem hex4?_eq_some_iff {a b c d : Char} {n : Nat} :
    hex4? a b c d = some n ↔ IsCodeUnit [a, b, c, d] n := by
  have value (i j k l : Nat) : [i, j, k, l].foldl (fun n d => 16 * n + d) 0 =
      0x1000 * i + 0x100 * j + 0x10 * k + l := by
    simp only [List.foldl_cons, List.foldl_nil]
    omega
  simp only [hex4?, Number.ofDigitsIn?, List.mapM_cons, List.mapM_nil, Option.bind_eq_bind,
    Option.bind_eq_some_iff, filter_digitValue?_iff, Option.pure_def, Option.some.injEq]
  constructor
  · rintro ⟨_, ⟨i, hi, _, ⟨j, hj, _, ⟨k, hk, _, ⟨l, hl, _, rfl, rfl⟩, rfl⟩, rfl⟩, rfl⟩, rfl⟩
    rw [value]
    exact .digits hi hj hk hl
  · intro h
    cases h with
    | digits ha hb hc hd =>
      exact ⟨_, ⟨_, ha, _, ⟨_, hb, _, ⟨_, hc, _, ⟨_, hd, _, rfl, rfl⟩, rfl⟩, rfl⟩, rfl⟩,
        value ..⟩

theorem IsCodeUnit.exists_hex4? {u : List Char} {n : Nat} (h : IsCodeUnit u n) :
    n < 0x10000 ∧ ∃ a b c d, u = [a, b, c, d] ∧ hex4? a b c d = some n := by
  obtain ⟨ha, hb, hc, hd⟩ := h
  refine ⟨?_, _, _, _, _, rfl, hex4?_eq_some_iff.2 (.digits ha hb hc hd)⟩
  have hi := (digitValue?_of_isHexDigit ha).1
  have hj := (digitValue?_of_isHexDigit hb).1
  have hk := (digitValue?_of_isHexDigit hc).1
  have hl := (digitValue?_of_isHexDigit hd).1
  omega

/-! ### What is written is read -/

theorem simpleEscape?_eq_some_iff {e c : Char} :
    simpleEscape? e = some c ↔ (e, c) ∈ shortEscapes := by
  unfold simpleEscape?
  constructor
  · intro h
    split_ifs at h with hself hb hf hn hr ht <;> obtain rfl := Option.some.inj h
    · simp only [Bool.or_eq_true, decide_eq_true_eq] at hself
      rcases hself with (rfl | rfl) | rfl <;> decide
    all_goals
      subst e
      decide
  · intro h
    simp only [shortEscapes, List.mem_cons, Prod.mk.injEq, List.not_mem_nil, or_false] at h
    rcases h with ⟨rfl, rfl⟩ | ⟨rfl, rfl⟩ | ⟨rfl, rfl⟩ | ⟨rfl, rfl⟩ | ⟨rfl, rfl⟩ | ⟨rfl, rfl⟩ |
      ⟨rfl, rfl⟩ | ⟨rfl, rfl⟩ <;> rfl

/-- A character before those that were read. -/
def prepend (c : Char) (p : List Char × List Char) : List Char × List Char := (c :: p.1, p.2)

theorem readString?_simple {c e : Char} (hc : c ≠ 'u') (he : simpleEscape? c = some e)
    (s : List Char) : readString? ('\\' :: c :: s) = (readString? s).map (prepend e) := by
  rw [readString?, he, Option.map_eq_bind]
  · rfl
  · rintro _ _ _ _ _ rfl
    exact absurd rfl hc

theorem readString?_plain {c : Char} (hq : c ≠ '"') (hb : c ≠ '\\') (hc : 32 ≤ c.toNat)
    (s : List Char) : readString? (c :: s) = (readString? s).map (prepend c) := by
  rw [readString?, Option.map_eq_bind]
  · simp [hb, Nat.not_lt.2 hc]
    rfl
  · exact hq
  · rintro a b c d s rfl
    exact absurd rfl hb
  · rintro c s rfl
    exact absurd rfl hb

theorem toNat_not_surrogate (c : Char) :
    isHighSurrogate c.toNat = false ∧ isLowSurrogate c.toNat = false := by
  have hvalid : c.toNat < 0xD800 ∨ 0xDFFF < c.toNat ∧ c.toNat < 0x110000 := c.valid
  simp only [isHighSurrogate, isLowSurrogate, Bool.and_eq_false_iff, decide_eq_false_iff_not]
  omega

theorem readString?_unit {u : List Char} {c : Char} (hu : IsCodeUnit u c.toNat) (s : List Char) :
    readString? ('\\' :: 'u' :: (u ++ s)) = (readString? s).map (prepend c) := by
  obtain ⟨-, x, y, z, w, rfl, hread⟩ := hu.exists_hex4?
  obtain ⟨hhigh, hlow⟩ := toNat_not_surrogate c
  simp only [List.cons_append, List.nil_append, readString?, hread, Option.bind_eq_bind,
    Option.bind_some, hhigh, hlow, Bool.false_eq_true, if_false, Char.ofNat_toNat,
    Option.map_eq_bind]
  rfl

theorem readString?_pair {u v : List Char} {n m : Nat} {c : Char} (hu : IsCodeUnit u n)
    (hv : IsCodeUnit v m) (hn : 0xD800 ≤ n ∧ n ≤ 0xDBFF) (hm : 0xDC00 ≤ m ∧ m ≤ 0xDFFF)
    (hc : c.toNat = 0x10000 + (n - 0xD800) * 0x400 + (m - 0xDC00)) (s : List Char) :
    readString? ('\\' :: 'u' :: (u ++ '\\' :: 'u' :: (v ++ s))) =
      (readString? s).map (prepend c) := by
  obtain ⟨-, x, y, z, w, rfl, hread⟩ := hu.exists_hex4?
  obtain ⟨-, x', y', z', w', rfl, hread'⟩ := hv.exists_hex4?
  have hhigh : isHighSurrogate n = true := by simpa [isHighSurrogate] using hn
  have hlow : isLowSurrogate m = true := by simpa [isLowSurrogate] using hm
  simp only [List.cons_append, List.nil_append, readString?, hread, hread', Option.bind_eq_bind,
    Option.bind_some, hhigh, hlow, if_true, Option.map_eq_bind, ← hc, Char.ofNat_toNat]
  rfl

theorem readString?_spelled {c : Char} {w : List Char} (h : IsSpelled c w) (s : List Char) :
    readString? (w ++ s) = (readString? s).map (prepend c) := by
  cases h with
  | plain hq hb hc => exact readString?_plain hq hb hc s
  | @short e _ h =>
    have hu : e ≠ 'u' := by
      rintro rfl
      simp [shortEscapes] at h
    exact readString?_simple hu (simpleEscape?_eq_some_iff.2 h) s
  | unit hu => exact readString?_unit hu s
  | pair hu hv hn hm hc =>
    simpa only [List.cons_append, List.append_assoc] using readString?_pair hu hv hn hm hc s

theorem readString?_quoted {cs w : List Char} (h : Quoted cs w) (r : List Char) :
    readString? (w ++ '"' :: r) = some (cs, r) := by
  induction h with
  | nil => rfl
  | cons hc _ ih =>
    rw [List.append_assoc, readString?_spelled hc, ih]
    rfl


/-! ### What is read was written -/

theorem exists_of_prepended {x : Option (List Char × List Char)} {c : Char} {cs r : List Char}
    (h : (do let (ds, r) ← x; return (c :: ds, r)) = some (cs, r)) :
    ∃ ds, x = some (ds, r) ∧ cs = c :: ds := by
  obtain ⟨⟨ds, r⟩, hx, hp⟩ := Option.bind_eq_some_iff.1 h
  cases hp
  exact ⟨ds, hx, rfl⟩

theorem exists_quoted_of_readString? {s cs r : List Char} (h : readString? s = some (cs, r)) :
    ∃ w, Quoted cs w ∧ s = w ++ '"' :: r := by
  fun_induction readString? s generalizing cs r with
  | case1 => cases h
  | case2 s =>
    cases h
    exact ⟨[], .nil, rfl⟩
  | case3 x y z w s ihpair ih =>
    obtain ⟨n, hread, h⟩ := Option.bind_eq_some_iff.1 h
    have hu := hex4?_eq_some_iff.1 hread
    have hlt := hu.exists_hex4?.1
    split_ifs at h with hhigh hlow
    · split at h
      · obtain ⟨m, hread', h⟩ := Option.bind_eq_some_iff.1 h
        have hv := hex4?_eq_some_iff.1 hread'
        split_ifs at h with hlow
        obtain ⟨ds, hrest, rfl⟩ := exists_of_prepended h
        obtain ⟨ws, hws, rfl⟩ := ihpair hrest
        simp only [isHighSurrogate, isLowSurrogate, Bool.and_eq_true, decide_eq_true_eq]
          at hhigh hlow
        have hc := Text.toNat_ofNat_of_valid
          (n := 0x10000 + (n - 0xD800) * 0x400 + (m - 0xDC00)) (by omega)
        exact ⟨_, .cons (.pair hu hv hhigh hlow hc) hws, rfl⟩
      · cases h
    · obtain ⟨ds, hrest, rfl⟩ := exists_of_prepended h
      obtain ⟨ws, hws, rfl⟩ := ih hrest
      simp only [isHighSurrogate, isLowSurrogate, Bool.and_eq_true, decide_eq_true_eq]
        at hhigh hlow
      have hc : (Char.ofNat n).toNat = n := Text.toNat_ofNat_of_valid (by omega)
      exact ⟨_, .cons (.unit (hc.symm ▸ hu)) hws, rfl⟩
  | case4 e s _ ih =>
    obtain ⟨c, hc, h⟩ := Option.bind_eq_some_iff.1 h
    obtain ⟨ds, hrest, rfl⟩ := exists_of_prepended h
    obtain ⟨ws, hws, rfl⟩ := ih hrest
    exact ⟨_, .cons (.short (simpleEscape?_eq_some_iff.1 hc)) hws, rfl⟩
  | case5 => cases h
  | case6 c s hq _ _ hplain ih =>
    obtain ⟨ds, hrest, rfl⟩ := exists_of_prepended h
    obtain ⟨ws, hws, rfl⟩ := ih hrest
    simp only [Bool.or_eq_true, decide_eq_true_eq, not_or, Nat.not_lt] at hplain
    exact ⟨_, .cons (.plain hq hplain.1 hplain.2) hws, rfl⟩

end Mockup.Json
