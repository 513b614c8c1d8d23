import Mathlib.Data.List.DropRight
import Mockup.Proofs.Http.Attribute
import Mockup.Proofs.Text.Occurrence
import Mockup.Proofs.Text.Utf8

/-! Texts between quotes. A backslash stands before each quote of the text's own, and a text that
does not end in a backslash is read back. Where the text itself mentions an attribute, what follows
the mention may be taken for its value. -/

namespace Mockup.Http.Multipart

open Text

/-! ### Quotes -/

def escape (s : Bytes) : Bytes := s.flatMap fun b => if b = 34 then [92, 34] else [b]

def quote (s : Bytes) : Bytes := 34 :: (escape s ++ [34])

theorem escape_quote (s : Bytes) : escape (34 :: s) = 92 :: 34 :: escape s := rfl

theorem escape_cons {b : UInt8} (h : b ≠ 34) (s : Bytes) : escape (b :: s) = b :: escape s := by
  rw [escape, List.flatMap_cons, if_neg h]
  rfl

theorem escape_append (s t : Bytes) : escape (s ++ t) = escape s ++ escape t := List.flatMap_append

theorem escape_of_notMem {s : Bytes} (h : 34 ∉ s) : escape s = s := by
  induction s with
  | nil => rfl
  | cons b s ih =>
    obtain ⟨hb, hs⟩ := not_or.1 (List.mem_cons.not.1 h)
    rw [escape_cons (Ne.symm hb), ih hs]

theorem escape_ne_nil {s : Bytes} (h : s ≠ []) : escape s ≠ [] := by
  obtain ⟨b, s, rfl⟩ := List.exists_cons_of_ne_nil h
  by_cases hb : b = 34
  · rw [hb, escape_quote]
    exact List.cons_ne_nil _ _
  · rw [escape_cons hb]
    exact List.cons_ne_nil _ _

theorem head?_escape_ne (s : Bytes) : (escape s).head? ≠ some 34 := by
  cases s with
  | nil => exact nofun
  | cons b s =>
    by_cases hb : b = 34
    · rw [hb, escape_quote, List.head?_cons]
      decide
    · rw [escape_cons hb]
      exact fun h => hb (Option.some.inj h)

/-- A quote that was escaped ends nothing, as a backslash stands before it. -/
theorem quotedText?_escape (before : UInt8) {s : Bytes} (hlast : s.getLast? ≠ some 92)
    (hbefore : s = [] → before ≠ 92) (r : Bytes) :
    quotedText? before (escape s ++ 34 :: r) = some (escape s) := by
  induction s generalizing before with
  | nil =>
    rw [escape, List.flatMap_nil, List.nil_append, quotedText?]
    simp [hbefore rfl]
  | cons b s ih =>
    have hrest : s.getLast? ≠ some 92 := by
      cases s with
      | nil => simp
      | cons c s => rwa [List.getLast?_cons_cons] at hlast
    by_cases hb : b = 34
    · subst hb
      have hinner := ih 34 hrest (fun _ => by decide)
      rw [escape_quote, List.cons_append, List.cons_append, quotedText?, if_neg (by simp),
        quotedText?, if_neg (by decide), hinner]
      rfl
    · have hinner := ih b hrest fun hnil => by
        subst hnil
        simpa using hlast
      rw [escape_cons hb, List.cons_append, quotedText?, if_neg (by simp [hb]), hinner]
      rfl

/-- Behind a backslash the quote that should end a text does not, and the text goes on. -/
theorem quotedText?_backslash (before : UInt8) {s : Bytes}
    (hlast : (before :: s).getLast? = some 92) (r : Bytes) :
    quotedText? before (escape s ++ 34 :: r) = (quotedText? 34 r).map (escape s ++ 34 :: ·) := by
  induction s generalizing before with
  | nil =>
    cases hlast
    rfl
  | cons b s ih =>
    rw [List.getLast?_cons_cons] at hlast
    have hinner := ih b hlast
    by_cases hb : b = 34
    · subst hb
      rw [escape_quote, List.cons_append, List.cons_append, quotedText?, if_neg (by simp),
        quotedText?, if_neg (by decide), hinner, Option.map_map, Option.map_map]
      rfl
    · rw [escape_cons hb, List.cons_append, quotedText?, if_neg (by simp [hb]), hinner,
        Option.map_map]
      rfl

theorem quote_mem_unescape {s : Bytes} (h : 34 ∈ s) : 34 ∈ unescape s := by
  fun_induction unescape s with
  | case1 s ih => exact List.mem_cons_self
  | case2 b s hb ih =>
    rcases List.mem_cons.1 h with rfl | h
    · exact List.mem_cons_self
    · exact List.mem_cons_of_mem _ (ih h)
  | case3 => cases h

theorem unescape_escape (s : Bytes) : unescape (escape s) = s := by
  induction s with
  | nil => rfl
  | cons b s ih =>
    by_cases hb : b = 34
    · subst hb
      rw [escape_quote, unescape, ih]
    · rw [escape_cons hb, unescape, ih]
      rintro r - hr
      cases s with
      | nil => cases hr
      | cons c s =>
        by_cases hc : c = 34
        · subst hc
          cases hr
        · rw [escape_cons hc] at hr
          exact hc (List.cons.inj hr).1

section Plain

variable {n s m a : Bytes}

/-- What has neither quotes nor backslashes is not made by escaping. -/
theorem exists_of_escape_eq_append (hquote : 34 ∉ n) (hslash : 92 ∉ n) (h : escape s = n ++ a) :
    ∃ s', s = n ++ s' ∧ a = escape s' := by
  induction n generalizing s with
  | nil => exact ⟨s, rfl, h.symm⟩
  | cons d n ih =>
    cases s with
    | nil => cases h
    | cons b s =>
      by_cases hb : b = 34
      · subst hb
        rw [escape_quote, List.cons_append, List.cons.injEq] at h
        exact absurd (h.1 ▸ List.mem_cons_self) hslash
      · rw [escape_cons hb, List.cons_append, List.cons.injEq] at h
        obtain ⟨rfl, h⟩ := h
        obtain ⟨s', rfl, rfl⟩ := ih (fun hm => hquote (List.mem_cons_of_mem _ hm))
          (fun hm => hslash (List.mem_cons_of_mem _ hm)) h
        exact ⟨s', rfl, rfl⟩

theorem exists_of_escape_eq (hn : n ≠ []) (hquote : 34 ∉ n) (hslash : 92 ∉ n)
    (h : escape s = m ++ (n ++ a)) :
    ∃ before after, s = before ++ (n ++ after) ∧ m = escape before ∧ a = escape after := by
  have hhead {b : UInt8} {t : Bytes} (hb : b :: t = n ++ a) : b ∈ n := by
    obtain ⟨d, n, rfl⟩ := List.exists_cons_of_ne_nil hn
    rw [(List.cons.inj hb).1]
    exact List.mem_cons_self
  induction s generalizing m with
  | nil =>
    obtain ⟨-, h⟩ := List.append_eq_nil_iff.1 h.symm
    exact absurd (List.append_eq_nil_iff.1 h).1 hn
  | cons b s ih =>
    by_cases hb : b = 34
    · subst hb
      rw [escape_quote] at h
      rcases m with _ | ⟨d, _ | ⟨e, m⟩⟩
      · exact absurd (hhead h) hslash
      · exact absurd (hhead (List.cons.inj h).2) hquote
      · simp only [List.cons_append, List.cons.injEq] at h
        obtain ⟨rfl, rfl, h⟩ := h
        obtain ⟨before, after, rfl, rfl, rfl⟩ := ih h
        exact ⟨34 :: before, after, rfl, rfl, rfl⟩
    · cases m with
      | nil =>
        obtain ⟨s', hs, rfl⟩ := exists_of_escape_eq_append hquote hslash h
        exact ⟨[], s', hs, rfl, rfl⟩
      | cons d m =>
        rw [escape_cons hb, List.cons_append, List.cons.injEq] at h
        obtain ⟨rfl, h⟩ := h
        obtain ⟨before, after, rfl, rfl, rfl⟩ := ih h
        exact ⟨b :: before, after, rfl, (escape_cons hb _).symm, rfl⟩

/-- What is not ended by a quote leaves the one at the end to what follows. -/
theorem exists_before_quote (hlast : n.getLast? ≠ some 34) (h : m ++ [34] = n ++ a) :
    ∃ a', a = a' ++ [34] ∧ m = n ++ a' := by
  rcases List.eq_nil_or_concat a with rfl | ⟨a, d, rfl⟩
  · rw [List.append_nil] at h
    rw [← h, List.getLast?_concat] at hlast
    exact absurd rfl hlast
  · rw [List.concat_eq_append, ← List.append_assoc] at h
    obtain ⟨rfl, hd⟩ := List.append_inj' h rfl
    exact ⟨a, by rw [List.concat_eq_append, hd], rfl⟩

theorem escape_quote_eq_append_iff (hquote : 34 ∉ n) (hslash : 92 ∉ n) :
    escape s ++ [34] = n ++ a ↔ ∃ s', s = n ++ s' ∧ a = escape s' ++ [34] := by
  constructor
  · intro h
    obtain ⟨a, rfl, hs⟩ := exists_before_quote (fun hl => hquote (List.mem_of_getLast? hl)) h
    obtain ⟨s', rfl, rfl⟩ := exists_of_escape_eq_append hquote hslash hs
    exact ⟨s', rfl, rfl⟩
  · rintro ⟨s', rfl, rfl⟩
    rw [escape_append, escape_of_notMem hquote, List.append_assoc]

theorem infix_of_infix_escape (hquote : 34 ∉ n) (hslash : 92 ∉ n) (h : n <:+: escape s) :
    n <:+: s := by
  by_cases hn : n = []
  · subst hn
    exact List.nil_infix
  · obtain ⟨m, a, h⟩ := h
    rw [List.append_assoc] at h
    obtain ⟨before, after, rfl, -⟩ := exists_of_escape_eq hn hquote hslash h.symm
    exact ⟨before, after, List.append_assoc _ _ _⟩

end Plain

theorem not_infix_quote {name s : Bytes} (hquote : 34 ∉ name) (hslash : 92 ∉ name)
    (h : ¬ name <:+: s) {before after : Bytes} (hbefore : ¬ name <:+: before)
    (hafter : ¬ name <:+: after) : ¬ name <:+: before ++ (quote s ++ after) := by
  have hinner := not_infix_append_cons hquote
    (fun hi => h (infix_of_infix_escape hquote hslash hi)) hafter
  have hwhole := not_infix_append_cons hquote hbefore hinner
  simpa [quote] using hwhole

/-! ### Quoted values -/

/-- The quote behind the text is taken for one of its own. -/
def EndsInBackslash (s : String) : Prop := s.toList.getLast? = some '\\'

instance (s : String) : Decidable (EndsInBackslash s) := inferInstanceAs (Decidable (_ = _))

theorem getLast?_bytes_iff {s : String} :
    (bytes s).getLast? = some 92 ↔ EndsInBackslash s := by
  unfold EndsInBackslash bytes
  rw [Utf8.encode_eq]
  rcases List.eq_nil_or_concat s.toList with hnil | ⟨cs, c, hcs⟩
  · simp [hnil]
  · have hne : String.utf8EncodeChar c ≠ [] := String.utf8EncodeChar_ne_nil
    rw [hcs, List.concat_eq_append, List.flatMap_append, List.flatMap_singleton,
      List.getLast?_append_of_ne_nil _ hne, List.getLast?_concat, Option.some.injEq]
    constructor
    · intro hlast
      have hc := Utf8.toNat_of_mem_utf8EncodeChar (by decide) (List.mem_of_getLast? hlast)
      exact Char.toNat_inj.1 hc
    · rintro rfl
      rfl

theorem attributeValue?_quote {v : String} (h : ¬ EndsInBackslash v) (r : Bytes) :
    attributeValue? (quote (bytes v) ++ r) = some (bytes v) := by
  have hquoted := quotedText?_escape 0 (fun hlast => h (getLast?_bytes_iff.1 hlast))
    (fun _ => by decide) r
  unfold attributeValue? quote
  rw [List.cons_append, List.dropWhile_cons_of_neg (by decide)]
  split
  · rename_i heq
    cases heq
    rw [List.append_assoc, List.singleton_append, hquoted, Option.map_some, unescape_escape]
  · rename_i hquote
    exact absurd rfl (hquote _)

/-- What ends in a backslash goes on behind its quote, up to the next one. -/
theorem attributeValue?_backslash {v : String} (h : EndsInBackslash v) (r : Bytes) :
    attributeValue? (quote (bytes v) ++ r) =
      (quotedText? 34 r).map fun s => unescape (escape (bytes v) ++ 34 :: s) := by
  have hlast : (0 :: bytes v).getLast? = some 92 := by
    rw [List.getLast?_cons, getLast?_bytes_iff.2 h]
    rfl
  have hquoted := quotedText?_backslash 0 hlast r
  unfold attributeValue? quote
  rw [List.cons_append, List.dropWhile_cons_of_neg (by decide)]
  split
  · rename_i heq
    cases heq
    rw [List.append_assoc, List.singleton_append, hquoted, Option.map_map]
    rfl
  · rename_i hquote
    exact absurd rfl (hquote _)

/-! ### Attributes between quotes -/

/-- Between the quotes of one attribute another is mentioned, in a place where it may be told. -/
structure Slips (name s before after : Bytes) : Prop where
  eq_append : s = before ++ (name ++ after)
  isPlace : IsPlace name (34 :: before)

/-- What ends a value without quotes. -/
def IsStop (b : UInt8) : Prop := b = 59 ∨ b = 32

theorem isStop_iff {b : UInt8} : IsStop b ↔ (b ≠ 59 && b ≠ 32) = false := by
  rw [Bool.and_eq_false_iff, IsStop]
  simp

/-- What stands behind a mention gives it the value: a sign of equality and the value, blanks apart,
and a semicolon or a space as its end. -/
def Supplies (value after : Bytes) : Prop :=
  ∃ s stop rest, after.dropWhile isBlankByte = 61 :: s ∧
    s.dropWhile isBlankByte = value ++ stop :: rest ∧ IsStop stop

/-- The first mention between the quotes that may tell the attribute gives it the value. -/
def PassesFor (name value s : Bytes) : Prop :=
  ∃ before after, IsFirst (Slips name s) before after ∧ Supplies value after

theorem length_escape_le_iff {a b s : Bytes} (ha : a <+: s) (hb : b <+: s) :
    (escape a).length ≤ (escape b).length ↔ a.length ≤ b.length := by
  constructor
  · intro h
    by_contra hlt
    obtain ⟨t, rfl⟩ := List.prefix_of_prefix_length_le hb ha (Nat.le_of_not_le hlt)
    have ht : t ≠ [] := by
      rintro rfl
      simp at hlt
    have hpos := List.length_pos_of_ne_nil (escape_ne_nil ht)
    rw [escape_append, List.length_append] at h
    omega
  · intro h
    obtain ⟨t, rfl⟩ := List.prefix_of_prefix_length_le ha hb h
    rw [escape_append, List.length_append]
    exact Nat.le_add_right _ _

theorem getLast?_escape (s : Bytes) : (escape s).getLast? = s.getLast? := by
  rcases List.eq_nil_or_concat s with rfl | ⟨s, b, rfl⟩
  · rfl
  · rw [List.concat_eq_append, escape_append, List.getLast?_concat]
    by_cases hb : b = 34
    · subst hb
      exact (List.getLast?_append_of_ne_nil _ (by decide)).trans rfl
    · rw [escape_cons hb]
      exact List.getLast?_concat

section Slips

variable {c : UInt8} {n s before after : Bytes}

theorem isPlace_escape_iff (hquote : 34 ∉ c :: n) (hslash : 92 ∉ c :: n) (hequal : 61 ∉ c :: n) :
    IsPlace (c :: n) (61 :: 34 :: escape before) ↔ IsPlace (c :: n) (34 :: before) := by
  have hlast : (61 :: 34 :: escape before).getLast? = (34 :: before).getLast? := by
    rw [List.getLast?_cons_cons, List.getLast?_cons, List.getLast?_cons, getLast?_escape]
  have hsuffix : c :: n <:+ 61 :: 34 :: escape before ↔ c :: n <:+ 34 :: before := by
    constructor
    · rintro ⟨_ | ⟨d, _ | ⟨e, t⟩⟩, ht⟩
      · exact absurd ((List.cons.inj ht).1 ▸ List.mem_cons_self) hequal
      · exact absurd ((List.cons.inj (List.cons.inj ht).2).1 ▸ List.mem_cons_self) hquote
      · simp only [List.cons_append, List.cons.injEq] at ht
        obtain ⟨rfl, rfl, ht⟩ := ht
        obtain ⟨u, w, rfl, -, hw⟩ := exists_of_escape_eq (a := []) (List.cons_ne_nil _ _) hquote
          hslash (by rw [List.append_nil, ht])
        obtain rfl : w = [] := by_contra fun hne => escape_ne_nil hne hw.symm
        exact ⟨34 :: u, by simp⟩
    · rintro ⟨_ | ⟨d, t⟩, ht⟩
      · exact absurd ((List.cons.inj ht).1 ▸ List.mem_cons_self) hquote
      · rw [List.cons_append] at ht
        obtain ⟨rfl, rfl⟩ := List.cons.inj ht
        exact ⟨61 :: 34 :: escape t, by rw [escape_append, escape_of_notMem hquote]; rfl⟩
  rw [IsPlace, IsPlace, hlast, hsuffix]

/-- The mentions in a quotation are those between its quotes. -/
theorem mentions_quote_iff (hquote : 34 ∉ c :: n) (hslash : 92 ∉ c :: n) (hequal : 61 ∉ c :: n)
    {m a : Bytes} :
    Mentions (c :: n) (61 :: quote s) m a ↔ ∃ before after, m = 61 :: 34 :: escape before ∧
      a = escape after ++ [34] ∧ Slips (c :: n) s before after := by
  constructor
  · rintro ⟨h, hplace⟩
    rcases m with _ | ⟨d, _ | ⟨e, m⟩⟩
    · exact absurd ((List.cons.inj h).1 ▸ List.mem_cons_self) hequal
    · exact absurd ((List.cons.inj (List.cons.inj h).2).1 ▸ List.mem_cons_self) hquote
    · simp only [quote, List.cons_append, List.cons.injEq] at h
      obtain ⟨rfl, rfl, h⟩ := h
      rw [← List.cons_append, ← List.append_assoc] at h
      have hlast : (m ++ (c :: n)).getLast? ≠ some 34 := by
        rw [List.getLast?_append_of_ne_nil _ (List.cons_ne_nil c n)]
        exact fun hlast => hquote (List.mem_of_getLast? hlast)
      obtain ⟨a, rfl, hs⟩ := exists_before_quote hlast h
      rw [List.append_assoc] at hs
      obtain ⟨before, after, rfl, rfl, rfl⟩ :=
        exists_of_escape_eq (List.cons_ne_nil _ _) hquote hslash hs
      exact ⟨before, after, rfl, rfl, rfl, (isPlace_escape_iff hquote hslash hequal).1 hplace⟩
  · rintro ⟨before, after, rfl, rfl, rfl, hplace⟩
    refine ⟨?_, (isPlace_escape_iff hquote hslash hequal).2 hplace⟩
    rw [quote, escape_append, escape_append, escape_of_notMem hquote]
    simp

theorem isFirst_quote_iff (hquote : 34 ∉ c :: n) (hslash : 92 ∉ c :: n) (hequal : 61 ∉ c :: n)
    {m a : Bytes} :
    IsFirst (Mentions (c :: n) (61 :: quote s)) m a ↔ ∃ before after,
      m = 61 :: 34 :: escape before ∧ a = escape after ++ [34] ∧
        IsFirst (Slips (c :: n) s) before after := by
  have hiff {m a : Bytes} := mentions_quote_iff (s := s) (m := m) (a := a) hquote hslash hequal
  constructor
  · intro h
    obtain ⟨before, after, rfl, rfl, hslips⟩ := hiff.1 h.holds
    refine ⟨before, after, rfl, rfl, hslips, fun before' after' h' => ?_⟩
    have hle := h.least _ _ (hiff.2 ⟨before', after', rfl, rfl, h'⟩)
    simp only [List.length_cons, Nat.add_le_add_iff_right] at hle
    exact (length_escape_le_iff ⟨_, hslips.eq_append.symm⟩ ⟨_, h'.eq_append.symm⟩).1 hle
  · rintro ⟨before, after, rfl, rfl, h⟩
    refine ⟨hiff.2 ⟨before, after, rfl, rfl, h.holds⟩, fun m' a' h' => ?_⟩
    obtain ⟨before', after', rfl, rfl, hslips⟩ := hiff.1 h'
    simp only [List.length_cons, Nat.add_le_add_iff_right]
    exact (length_escape_le_iff ⟨_, h.holds.eq_append.symm⟩ ⟨_, hslips.eq_append.symm⟩).2
      (h.least _ _ hslips)

end Slips

/-! ### Values between quotes -/

/-- A value that is written without quotes. -/
structure IsWord (v : Bytes) : Prop where
  ne_nil : v ≠ []
  isWordByte : ∀ b ∈ v, isBlankByte b = false ∧ b ≠ 59 ∧ b ≠ 34 ∧ b ≠ 92

theorem dropWhile_escape (s : Bytes) :
    (escape s ++ [34]).dropWhile isBlankByte = escape (s.dropWhile isBlankByte) ++ [34] := by
  induction s with
  | nil => rfl
  | cons b s ih =>
    by_cases hb : b = 34
    · subst hb
      rfl
    · rw [escape_cons hb, List.cons_append]
      by_cases hblank : isBlankByte b = true
      · rw [List.dropWhile_cons_of_pos hblank, List.dropWhile_cons_of_pos hblank, ih]
      · rw [List.dropWhile_cons_of_neg hblank, List.dropWhile_cons_of_neg hblank, escape_cons hb]
        rfl

/-- Blanks apart, the value is what stands before the first stop, and what is there at all. -/
theorem attributeValue?_escape (s : Bytes) :
    attributeValue? (escape s ++ [34]) = if s.dropWhile isBlankByte = [] then none else
      some ((escape (s.dropWhile isBlankByte) ++ [34]).takeWhile fun b => b ≠ 59 && b ≠ 32) := by
  have htrim : trimBlank (escape (s.dropWhile isBlankByte) ++ [34]) =
      escape (s.dropWhile isBlankByte) ++ [34] := by
    rw [trimBlank, dropWhile_escape, List.dropWhile_idempotent, List.reverse_append,
      List.reverse_singleton, List.singleton_append, List.dropWhile_cons_of_neg (by decide),
      List.reverse_cons, List.reverse_reverse]
  unfold attributeValue?
  rw [dropWhile_escape]
  split_ifs with hnil
  · rw [hnil]
    rfl
  · split
    · rename_i hhead
      have hfirst := congrArg List.head? hhead
      rw [List.head?_append_of_ne_nil _ (escape_ne_nil hnil)] at hfirst
      exact absurd hfirst (head?_escape_ne _)
    · rw [htrim]

theorem takeWhile_escape_iff {v t : Bytes} (hv : IsWord v) :
    (escape t ++ [34]).takeWhile (fun b => b ≠ 59 && b ≠ 32) = v ↔
      ∃ stop rest, t = v ++ stop :: rest ∧ IsStop stop := by
  have hquote : 34 ∉ v := fun hm => (hv.isWordByte 34 hm).2.2.1 rfl
  have hslash : 92 ∉ v := fun hm => (hv.isWordByte 92 hm).2.2.2 rfl
  constructor
  · intro h
    have hsplit := List.takeWhile_append_dropWhile (l := escape t ++ [34])
      (p := fun b : UInt8 => b ≠ 59 && b ≠ 32)
    have hhead := List.head?_dropWhile_not (fun b : UInt8 => b ≠ 59 && b ≠ 32) (escape t ++ [34])
    rw [h] at hsplit
    cases hrest : (escape t ++ [34]).dropWhile fun b => b ≠ 59 && b ≠ 32 with
    | nil =>
      rw [hrest, List.append_nil] at hsplit
      exact absurd (hsplit ▸ List.mem_append_right _ List.mem_cons_self) hquote
    | cons stop rest =>
      rw [hrest] at hsplit hhead
      have hstop : IsStop stop := isStop_iff.2 hhead
      have hends : (34 : UInt8) ∉ [stop] ∧ (92 : UInt8) ∉ [stop] := by
        rcases hstop with rfl | rfl <;> decide
      rw [← List.singleton_append, ← List.append_assoc] at hsplit
      obtain ⟨rest', rfl, -⟩ := (escape_quote_eq_append_iff
        (fun hm => (List.mem_append.1 hm).elim hquote hends.1)
        (fun hm => (List.mem_append.1 hm).elim hslash hends.2)).1 hsplit.symm
      exact ⟨stop, rest', List.append_assoc _ _ _, hstop⟩
  · rintro ⟨stop, rest, rfl, hstop⟩
    have hword (b : UInt8) (hb : b ∈ v) : (b ≠ 59 && b ≠ 32) = true := by
      obtain ⟨hblank, hsemicolon, -⟩ := hv.isWordByte b hb
      rw [Bool.and_eq_true, decide_eq_true_eq, decide_eq_true_eq]
      exact ⟨hsemicolon, fun hspace => by rw [hspace] at hblank; cases hblank⟩
    have hstopped : escape (stop :: rest) = stop :: escape rest :=
      escape_cons (by rcases hstop with rfl | rfl <;> decide) rest
    rw [escape_append, escape_of_notMem hquote, hstopped, List.append_assoc,
      List.takeWhile_append_of_pos hword, List.cons_append,
      List.takeWhile_cons_of_neg (by rw [isStop_iff.1 hstop]; exact Bool.false_ne_true),
      List.append_nil]

/-- The value of an attribute that stands before the closing quote. -/
theorem attributeValue?_escape_iff {v s : Bytes} (hv : IsWord v) :
    attributeValue? (escape s ++ [34]) = some v ↔
      ∃ stop rest, s.dropWhile isBlankByte = v ++ stop :: rest ∧ IsStop stop := by
  rw [attributeValue?_escape]
  split_ifs with hnil
  · rw [hnil]
    exact ⟨nofun, fun ⟨stop, rest, h, _⟩ => by simp at h⟩
  · rw [Option.some.injEq, takeWhile_escape_iff hv]

theorem valueBehind?_escape_iff {v after : Bytes} (hv : IsWord v) :
    valueBehind? (escape after ++ [34]) = some v ↔ Supplies v after := by
  unfold valueBehind?
  rw [dropWhile_escape]
  constructor
  · intro h
    split at h
    · rename_i t ht
      obtain ⟨s, hs, rfl⟩ := (escape_quote_eq_append_iff (n := [61]) (by decide) (by decide)).1 ht
      obtain ⟨stop, rest, hrest, hstop⟩ := (attributeValue?_escape_iff hv).1 h
      exact ⟨s, stop, rest, hs, hrest, hstop⟩
    · cases h
  · rintro ⟨s, stop, rest, hs, hrest, hstop⟩
    rw [hs, escape_cons (by decide)]
    exact (attributeValue?_escape_iff hv).2 ⟨stop, rest, hrest, hstop⟩

end Mockup.Http.Multipart
