import Mathlib.Tactic.SplitIfs
import Mockup.Proofs.Text.Words
import Mockup.Text.Utf8

/-! Text in UTF-8 is read back, character by character. A byte below 128 stands for its character
and for nothing else, and such a character is read from nothing else. -/

namespace Mockup.Text.Utf8

open String (utf8EncodeChar)

/-! ### The bytes of a text -/

theorem toList_loop_of_size_le (bs : ByteArray) (k i : Nat) (r : Bytes) (h : bs.size ≤ i + k) :
    ByteArray.toList.loop bs i r = r.reverse ++ bs.data.toList.drop i := by
  have hlength : bs.data.toList.length = bs.size := rfl
  induction k generalizing i r with
  | zero =>
    rw [ByteArray.toList.loop, if_neg (by omega), List.drop_eq_nil_of_le (by omega),
      List.append_nil]
  | succ k ih =>
    by_cases hi : i < bs.size
    · have hget : bs.get! i = bs.data.toList[i] := getElem!_pos bs.data i hi
      rw [ByteArray.toList.loop, if_pos hi, ih (i + 1) (bs.get! i :: r) (by omega),
        List.reverse_cons, List.append_assoc, hget, List.singleton_append,
        List.getElem_cons_drop]
    · exact ih i r (by omega)

theorem encode_eq (s : String) : encode s = s.toList.flatMap utf8EncodeChar := by
  have h := toList_loop_of_size_le s.toUTF8 s.toUTF8.size 0 [] (by omega)
  rw [encode, ByteArray.toList, h, String.toUTF8_eq_toByteArray, ← String.utf8Encode_toList,
    List.utf8Encode, List.toList_data_toByteArray]
  rfl

theorem utf8EncodeChar_of_lt {c : Char} (h : c.toNat < 128) :
    utf8EncodeChar c = [UInt8.ofNat c.toNat] := by
  unfold utf8EncodeChar
  exact if_pos (Nat.le_of_lt_succ h)

theorem le_of_mem_utf8EncodeChar {b : UInt8} {c : Char} (h : 128 ≤ c.toNat)
    (hb : b ∈ utf8EncodeChar c) : 128 ≤ b.toNat := by
  have hc : c.val.toNat = c.toNat := rfl
  unfold utf8EncodeChar at hb
  rw [hc] at hb
  dsimp only at hb
  split_ifs at hb
  · omega
  all_goals
    simp only [List.mem_cons, List.not_mem_nil, or_false] at hb
    rcases hb with rfl | hb | hb | hb <;> subst_vars <;> rw [UInt8.toNat_ofNat'] <;> omega

/-- A byte below 128 is the whole of its character. -/
theorem toNat_of_mem_utf8EncodeChar {b : UInt8} {c : Char} (hb : b.toNat < 128)
    (h : b ∈ utf8EncodeChar c) : c.toNat = b.toNat := by
  by_cases hc : c.toNat < 128
  · rw [utf8EncodeChar_of_lt hc, List.mem_singleton] at h
    rw [h, UInt8.toNat_ofNat']
    omega
  · have := le_of_mem_utf8EncodeChar (Nat.not_lt.1 hc) h
    omega

theorem exists_of_mem_encode {b : UInt8} {s : String} (h : b ∈ encode s) :
    128 ≤ b.toNat ∨ ∃ c ∈ s.toList, c.toNat = b.toNat := by
  by_cases hb : b.toNat < 128
  · rw [encode_eq, List.mem_flatMap] at h
    obtain ⟨c, hc, hmem⟩ := h
    exact .inr ⟨c, hc, toNat_of_mem_utf8EncodeChar hb hmem⟩
  · exact .inl (Nat.not_lt.1 hb)

/-- ASCII stands for itself. -/
theorem mem_encode_iff {c : Char} {s : String} (h : c.toNat < 128) :
    UInt8.ofNat c.toNat ∈ encode s ↔ c ∈ s.toList := by
  have htoNat : (UInt8.ofNat c.toNat).toNat = c.toNat :=
    UInt8.toNat_ofNat_of_lt' (Nat.lt_trans h (by decide))
  constructor
  · intro hb
    rcases exists_of_mem_encode hb with hhigh | ⟨d, hd, hdc⟩
    · omega
    · rw [htoNat] at hdc
      exact Char.toNat_inj.1 hdc ▸ hd
  · intro hc
    rw [encode_eq, List.mem_flatMap]
    exact ⟨c, hc, by rw [utf8EncodeChar_of_lt h]; exact List.mem_singleton_self _⟩

/-! ### Reading back -/

/-- A character starts no surrogate pair. -/
theorem toNat_cases (c : Char) :
    c.toNat < 0xD800 ∨ 0xDFFF < c.toNat ∧ c.toNat < 0x110000 := c.valid

theorem chars_start {b : UInt8} {st : Owed} (h : start b.toNat = some (.inr st)) (bs : Bytes) :
    chars {} (b :: bs) = chars st bs := by
  rw [chars]
  simp [h]

theorem chars_owed {b : UInt8} {n low high bits : Nat} (hlow : low ≤ b.toNat)
    (hhigh : b.toNat ≤ high) (bs : Bytes) :
    chars ⟨n + 2, low, high, bits⟩ (b :: bs) =
      chars ⟨n + 1, 0x80, 0xBF, bits * 64 + (b.toNat - 0x80)⟩ bs := by
  rw [chars]
  simp [hlow, hhigh]

theorem chars_last {b : UInt8} {low high bits : Nat} (hlow : low ≤ b.toNat)
    (hhigh : b.toNat ≤ high) (bs : Bytes) :
    chars ⟨1, low, high, bits⟩ (b :: bs) =
      some (Char.ofNat (bits * 64 + (b.toNat - 0x80))) :: chars {} bs := by
  rw [chars]
  simp [hlow, hhigh]

variable {n : Nat}

theorem chars_two (h : 0x80 ≤ n) (h' : n < 0x800) (bs : Bytes) :
    chars {} (UInt8.ofNat (n / 64 % 32 + 192) :: UInt8.ofNat (n % 64 + 128) :: bs) =
      some (Char.ofNat n) :: chars {} bs := by
  have hfirst : (UInt8.ofNat (n / 64 % 32 + 192)).toNat = n / 64 + 192 := by
    rw [UInt8.toNat_ofNat']
    omega
  have hsecond : (UInt8.ofNat (n % 64 + 128)).toNat = n % 64 + 128 := by
    rw [UInt8.toNat_ofNat']
    omega
  have hstart : start (n / 64 + 192) = some (.inr ⟨1, 0x80, 0xBF, n / 64⟩) := by
    unfold start
    rw [if_neg (by omega), if_pos (by simp only [Bool.and_eq_true, decide_eq_true_eq]; omega),
      Nat.add_sub_cancel]
  have hbits : n / 64 * 64 + (n % 64 + 128 - 0x80) = n := by omega
  rw [chars_start (by rw [hfirst, hstart]), chars_last (by omega) (by omega), hsecond, hbits]

/-- The second byte of three is kept away from what two bytes hold, and from surrogates. -/
theorem start_three (h : 0x800 ≤ n) (h' : n < 0x10000) (hn : n < 0xD800 ∨ 0xDFFF < n) :
    ∃ low high, start (n / 4096 + 224) = some (.inr ⟨2, low, high, n / 4096⟩) ∧
      low ≤ n / 64 % 64 + 128 ∧ n / 64 % 64 + 128 ≤ high := by
  unfold start
  rw [if_neg (by omega), if_neg (by simp only [Bool.and_eq_true, decide_eq_true_eq]; omega)]
  by_cases hlow : n / 4096 = 0
  · exact ⟨0xA0, 0xBF, by rw [hlow]; rfl, by omega, by omega⟩
  · by_cases hhigh : n / 4096 = 13
    · exact ⟨0x80, 0x9F, by rw [hhigh]; rfl, by omega, by omega⟩
    · refine ⟨0x80, 0xBF, ?_, by omega, by omega⟩
      rw [if_neg (by omega), if_neg (by omega),
        if_pos (by simp only [Bool.and_eq_true, decide_eq_true_eq]; omega), Nat.add_sub_cancel]

theorem chars_three (h : 0x800 ≤ n) (h' : n < 0x10000) (hn : n < 0xD800 ∨ 0xDFFF < n)
    (bs : Bytes) :
    chars {} (UInt8.ofNat (n / 4096 % 16 + 224) :: UInt8.ofNat (n / 64 % 64 + 128) ::
      UInt8.ofNat (n % 64 + 128) :: bs) = some (Char.ofNat n) :: chars {} bs := by
  have hfirst : (UInt8.ofNat (n / 4096 % 16 + 224)).toNat = n / 4096 + 224 := by
    rw [UInt8.toNat_ofNat']
    omega
  have hsecond : (UInt8.ofNat (n / 64 % 64 + 128)).toNat = n / 64 % 64 + 128 := by
    rw [UInt8.toNat_ofNat']
    omega
  have hthird : (UInt8.ofNat (n % 64 + 128)).toNat = n % 64 + 128 := by
    rw [UInt8.toNat_ofNat']
    omega
  obtain ⟨low, high, hstart, hlow, hhigh⟩ := start_three h h' hn
  have hbits : (n / 4096 * 64 + (n / 64 % 64 + 128 - 0x80)) * 64 + (n % 64 + 128 - 0x80) = n := by
    omega
  rw [chars_start (by rw [hfirst, hstart]), chars_owed (n := 0) (by omega) (by omega),
    chars_last (by omega) (by omega), hsecond, hthird, hbits]

/-- The second byte of four is kept away from what three bytes hold, and from what no character
has for a number. -/
theorem start_four (h : 0x10000 ≤ n) (h' : n < 0x110000) :
    ∃ low high, start (n / 262144 + 240) = some (.inr ⟨3, low, high, n / 262144⟩) ∧
      low ≤ n / 4096 % 64 + 128 ∧ n / 4096 % 64 + 128 ≤ high := by
  unfold start
  rw [if_neg (by omega), if_neg (by simp only [Bool.and_eq_true, decide_eq_true_eq]; omega),
    if_neg (by omega), if_neg (by omega),
    if_neg (by simp only [Bool.and_eq_true, decide_eq_true_eq]; omega)]
  by_cases hlow : n / 262144 = 0
  · exact ⟨0x90, 0xBF, by rw [hlow]; rfl, by omega, by omega⟩
  · by_cases hhigh : n / 262144 = 4
    · exact ⟨0x80, 0x8F, by rw [hhigh]; rfl, by omega, by omega⟩
    · refine ⟨0x80, 0xBF, ?_, by omega, by omega⟩
      rw [if_neg (by omega), if_pos (by simp only [Bool.and_eq_true, decide_eq_true_eq]; omega),
        Nat.add_sub_cancel]

theorem chars_four (h : 0x10000 ≤ n) (h' : n < 0x110000) (bs : Bytes) :
    chars {} (UInt8.ofNat (n / 262144 % 8 + 240) :: UInt8.ofNat (n / 4096 % 64 + 128) ::
      UInt8.ofNat (n / 64 % 64 + 128) :: UInt8.ofNat (n % 64 + 128) :: bs) =
      some (Char.ofNat n) :: chars {} bs := by
  have hfirst : (UInt8.ofNat (n / 262144 % 8 + 240)).toNat = n / 262144 + 240 := by
    rw [UInt8.toNat_ofNat']
    omega
  have hsecond : (UInt8.ofNat (n / 4096 % 64 + 128)).toNat = n / 4096 % 64 + 128 := by
    rw [UInt8.toNat_ofNat']
    omega
  have hthird : (UInt8.ofNat (n / 64 % 64 + 128)).toNat = n / 64 % 64 + 128 := by
    rw [UInt8.toNat_ofNat']
    omega
  have hfourth : (UInt8.ofNat (n % 64 + 128)).toNat = n % 64 + 128 := by
    rw [UInt8.toNat_ofNat']
    omega
  obtain ⟨low, high, hstart, hlow, hhigh⟩ := start_four h h'
  have hbits : ((n / 262144 * 64 + (n / 4096 % 64 + 128 - 0x80)) * 64 +
      (n / 64 % 64 + 128 - 0x80)) * 64 + (n % 64 + 128 - 0x80) = n := by
    omega
  rw [chars_start (by rw [hfirst, hstart]), chars_owed (n := 1) (by omega) (by omega),
    chars_owed (n := 0) (by omega) (by omega), chars_last (by omega) (by omega), hsecond, hthird,
    hfourth, hbits]

theorem chars_utf8EncodeChar (c : Char) (bs : Bytes) :
    chars {} (utf8EncodeChar c ++ bs) = some c :: chars {} bs := by
  have hvalid := toNat_cases c
  have hback : Char.ofNat c.toNat = c := Char.ofNat_toNat c
  have hc : c.val.toNat = c.toNat := rfl
  unfold utf8EncodeChar
  dsimp only
  rw [hc]
  split_ifs with h₁ h₂ h₃
  · have hbyte : (UInt8.ofNat c.toNat).toNat = c.toNat := by
      rw [UInt8.toNat_ofNat']
      omega
    have hstart : start c.toNat = some (.inl c) := by
      unfold start
      rw [if_pos (by omega), hback]
    rw [List.singleton_append, chars, hbyte]
    simp [hstart]
  · exact (chars_two (by omega) (by omega) bs).trans (by rw [hback])
  · exact (chars_three (by omega) (by omega) (by omega) bs).trans (by rw [hback])
  · exact (chars_four (by omega) (by omega) bs).trans (by rw [hback])

theorem chars_encode (s : String) : chars {} (encode s) = s.toList.map some := by
  rw [encode_eq]
  induction s.toList with
  | nil => rfl
  | cons c cs ih => rw [List.flatMap_cons, chars_utf8EncodeChar, ih, List.map_cons]

theorem decode?_encode (s : String) : decode? (encode s) = some s := by
  have hwhole : s.toList.mapM (m := Option) pure = some (s.toList.map id) := List.mapM_pure
  rw [decode?, chars_encode, List.mapM_map]
  exact (congrArg (Option.map String.ofList) hwhole).trans (by simp)

/-! ### Text of ASCII -/

theorem toNat_ofNat_or (n : Nat) : (Char.ofNat n).toNat = n ∨ (Char.ofNat n).toNat = 0 := by
  by_cases h : n < 0xD800 ∨ 0xDFFF < n ∧ n < 0x110000
  · exact .inl (toNat_ofNat_of_valid h)
  · rw [Char.ofNat, dif_neg h]
    exact .inr rfl

/-- What is owed will come to a character that one byte does not hold. -/
def IsWide (st : Owed) : Prop := 2 ≤ st.bits ∨ 2 ≤ st.count ∧ (1 ≤ st.bits ∨ 0x90 ≤ st.low)

theorem isWide_of_start {st : Owed} (h : start n = some (.inr st)) : 0 < st.count ∧ IsWide st := by
  unfold start at h
  split_ifs at h with h₁ h₂ <;> cases h
  all_goals
    simp only [IsWide, Bool.and_eq_true, decide_eq_true_eq] at *
    omega

theorem toNat_of_start {c : Char} (h : start n = some (.inl c)) : c.toNat = n := by
  unfold start at h
  split_ifs at h with hn <;> cases h
  exact toNat_ofNat_of_valid (.inl (by omega))

/-- What is read where more is owed than ASCII takes is no text of ASCII. By induction on the bytes,
until nothing is owed. -/
theorem exists_of_isWide {bs : Bytes} {st : Owed} {cs : List Char} (h : chars st bs = cs.map some)
    (howes : 0 < st.count) (hwide : IsWide st) : ∃ c ∈ cs, ¬ (0 < c.toNat ∧ c.toNat < 128) := by
  have hnil {l : List (Option Char)} : none :: l ≠ cs.map some := by cases cs <;> exact nofun
  induction bs generalizing st with
  | nil =>
    rw [chars, if_neg (Nat.ne_of_gt howes)] at h
    exact absurd h hnil
  | cons b bs ih =>
    unfold chars at h
    dsimp only at h
    split_ifs at h with howed hlast hcount
    · simp only [Bool.and_eq_true, decide_eq_true_eq, ne_eq] at howed
      obtain ⟨c, cs, rfl, hc, -⟩ := List.map_eq_cons_iff.1 h.symm
      refine ⟨c, List.mem_cons_self, ?_⟩
      rw [Option.some.inj hc]
      unfold IsWide at hwide
      rcases toNat_ofNat_or (st.bits * 64 + (b.toNat - 0x80)) with hn | hn <;> omega
    · simp only [Bool.and_eq_true, decide_eq_true_eq, ne_eq] at howed
      refine ih h (by dsimp only; omega) ?_
      unfold IsWide at hwide ⊢
      dsimp only
      omega
    · omega
    · cases hstart : start b.toNat with
      | none =>
        rw [hstart] at h
        exact absurd h hnil
      | some first =>
        rw [hstart] at h
        cases first <;> exact absurd h hnil

/-- Where only characters of ASCII are read, there is a byte for each. -/
theorem chars_ascii {bs : Bytes} {cs : List Char} (h : chars {} bs = cs.map some)
    (hcs : ∀ c ∈ cs, 0 < c.toNat ∧ c.toNat < 128) : bs = cs.map fun c => UInt8.ofNat c.toNat := by
  induction bs generalizing cs with
  | nil =>
    rw [chars, if_pos rfl] at h
    rw [List.map_eq_nil_iff.1 h.symm]
    rfl
  | cons b bs ih =>
    rw [chars] at h
    simp only [ne_eq, not_true_eq_false, decide_false, Bool.false_and, Bool.false_eq_true,
      if_false, if_true, List.nil_append] at h
    cases hstart : start b.toNat with
    | none =>
      rw [hstart] at h
      cases cs <;> cases h
    | some first =>
      rw [hstart] at h
      cases first with
      | inl c =>
        obtain ⟨c', cs, rfl, hc, hrest⟩ := List.map_eq_cons_iff.1 h.symm
        cases hc
        have hbs := ih hrest.symm fun c hc => hcs c (List.mem_cons_of_mem _ hc)
        rw [List.map_cons, ← hbs, toNat_of_start hstart, UInt8.ofNat_toNat]
      | inr st =>
        obtain ⟨howes, hwide⟩ := isWide_of_start hstart
        obtain ⟨c, hc, hno⟩ := exists_of_isWide h howes hwide
        exact absurd (hcs c hc) hno

/-- Text of ASCII is read from its own bytes only. -/
theorem eq_of_decode? {bs : Bytes} {s : String} (h : decode? bs = some s)
    (hs : ∀ c ∈ s.toList, 0 < c.toNat ∧ c.toNat < 128) : bs = encode s := by
  obtain ⟨cs, hcs, rfl⟩ := Option.map_eq_some_iff.1 h
  rw [String.toList_ofList] at hs
  have hchars : chars {} bs = cs.map some :=
    List.forall₂_eq_eq_eq ▸ List.forall₂_map_right_iff.2 (mapM_eq_some_iff.1 hcs)
  have hbs := chars_ascii hchars hs
  rw [hbs, encode_eq, String.toList_ofList, List.map_eq_flatMap]
  exact List.flatMap_congr fun c hc => (utf8EncodeChar_of_lt (hs c hc).2).symm

end Mockup.Text.Utf8
