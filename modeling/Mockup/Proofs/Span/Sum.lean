import Mockup.Proofs.Json.Numeral
import Mockup.Proofs.Number.Digit
import Mockup.Proofs.Text.Words
import Mockup.Span.Expression

/-! Written sums of times. Terms one after another, with a plus sign between two of them or without,
say their exact sum. It is found if it fits 64 bits of nanoseconds, whatever the parts of the text
are; a greater sum is refused, wherever on the way it grows too great. -/

namespace Mockup.Span

open Number

/-! ### Texts of sums -/

/-- Blanks, which may stand around all parts of a sum. -/
def AreSpaces (s : List Char) : Prop := ∀ c ∈ s, isSpace c = true

/-- A spelling of the unit, in any letter case. -/
def Unit.IsWord (u : Unit) (w : List Char) : Prop :=
  ∃ names, (u, names) ∈ Unit.spellings ∧ ∃ name ∈ names, w.map Char.toLower = name.toList

/-- The digits of a number and a spelling of its unit. -/
inductive WritesTerm (n : Nat) (u : Unit) : List Char → Prop where
  | parts {before digits between word after : List Char} (hbefore : AreSpaces before)
    (hdigits : Json.IsDigits digits) (hn : ofDigits digits = n) (hbetween : AreSpaces between)
    (hword : u.IsWord word) (hafter : AreSpaces after) :
    WritesTerm n u (before ++ digits ++ between ++ word ++ after)

/-- Numbers with their units, one after another or with plus signs between them. -/
inductive Writes : List (Nat × Unit) → List Char → Prop where
  | one {n : Nat} {u : Unit} {s : List Char} (h : WritesTerm n u s) : Writes [(n, u)] s
  | adjoined {n : Nat} {u : Unit} {s r : List Char} {ts : List (Nat × Unit)}
    (h : WritesTerm n u s) (hr : Writes ts r) : Writes ((n, u) :: ts) (s ++ r)
  | plus {n : Nat} {u : Unit} {s r : List Char} {ts : List (Nat × Unit)}
    (h : WritesTerm n u s) (hr : Writes ts r) : Writes ((n, u) :: ts) (s ++ '+' :: r)

/-- The exact sum in nanoseconds, however great. -/
def total : List (Nat × Unit) → Nat
  | [] => 0
  | (n, u) :: ts => n * u.nanoseconds + total ts

/-! ### Values -/

/-- The value of a computation is this number if 64 bits hold it, and otherwise there is none. -/
structure Comes (x : Except ValueError Nat) (n : Nat) : Prop where
  of_lt : n < twoTo 64 → x = .ok n
  of_le : twoTo 64 ≤ n → ∃ e, x = .error e

theorem fit_comes (n : Nat) : Comes (fit n) n where
  of_lt h := if_pos h
  of_le h := ⟨.overflow, if_neg (by omega)⟩

/-- Numbers only grow, so what is computed of a number that is too great is so as well. -/
theorem Comes.bind {x : Except ValueError Nat} {m n : Nat} {f : Nat → Except ValueError Nat}
    (hx : Comes x m) (hle : m ≤ n) (hf : m < twoTo 64 → Comes (f m) n) : Comes (x >>= f) n := by
  by_cases hm : m < twoTo 64
  · rw [hx.of_lt hm]
    exact hf hm
  · obtain ⟨e, he⟩ := hx.of_le (by omega)
    rw [he]
    exact ⟨fun h => by omega, fun _ => ⟨e, rfl⟩⟩

theorem Unit.nanoseconds_pos (u : Unit) : 0 < u.nanoseconds := by
  cases u <;> decide

theorem Term.value_comes (t : Term) : Comes t.value (ofDigits t.digits * t.unit.nanoseconds) := by
  have hle := Nat.le_mul_of_pos_right (ofDigits t.digits) t.unit.nanoseconds_pos
  unfold Term.value
  dsimp only
  split
  · exact fit_comes _
  · exact ⟨fun h => by omega, fun _ => ⟨_, rfl⟩⟩

/-- The numbers and units of terms. -/
def amounts (ts : List Term) : List (Nat × Unit) := ts.map fun t => (ofDigits t.digits, t.unit)

/-- The running sum: by induction on the terms, what it comes to is the sum so far and the rest. -/
theorem combine_comes (ts : List Term) {acc : Nat} (hacc : acc < twoTo 64) :
    Comes (combine .plus acc (ts.map fun t => (.plus, t))) (acc + total (amounts ts)) := by
  induction ts generalizing acc with
  | nil => exact ⟨fun _ => rfl, fun h => by simp [amounts, total] at h; omega⟩
  | cons t ts ih =>
    have htotal : total (amounts (t :: ts)) =
        ofDigits t.digits * t.unit.nanoseconds + total (amounts ts) := rfl
    rw [List.map_cons, combine, if_pos rfl, htotal]
    refine t.value_comes.bind (by omega) fun hvalue => ?_
    refine (fit_comes _).bind (by omega) fun hsum => ?_
    rw [← Nat.add_assoc]
    exact ih hsum

/-- The first term is added last, which makes no difference. -/
theorem restValue_comes (ts : List Term) {first : Nat} (hfirst : first < twoTo 64) :
    Comes (restValue first (ts.map fun t => (.plus, t))) (first + total (amounts ts)) := by
  cases ts with
  | nil => exact ⟨fun _ => rfl, fun h => by simp [amounts, total] at h; omega⟩
  | cons t ts =>
    have htotal : total (amounts (t :: ts)) =
        ofDigits t.digits * t.unit.nanoseconds + total (amounts ts) := rfl
    rw [htotal]
    refine t.value_comes.bind (by omega) fun hvalue => ?_
    refine (combine_comes ts hvalue).bind (by omega) fun _ => ?_
    exact fit_comes _

/-! ### Words of units -/

theorem isUnitChar_of_toLower {c : Char} (h : isUnitChar c.toLower = true) :
    isUnitChar c = true := by
  cases hc : c.isUpper with
  | false => rwa [Text.toLower_of_isUpper_eq_false hc] at h
  | true =>
    have halpha : c.isAlpha = true := by
      delta Char.isAlpha
      rw [hc, Bool.true_or]
    rw [isUnitChar, halpha, Bool.true_or]

theorem spellings_readable : ∀ p ∈ Unit.spellings, ∀ name ∈ p.2,
    name.toList ≠ [] ∧ name.toList.all isUnitChar = true ∧
      (Unit.spellings.find? fun q => q.2.contains name).map (·.1) = some p.1 := by
  decide +kernel

theorem Unit.IsWord.ne_nil {u : Unit} {w : List Char} (h : u.IsWord w) : w ≠ [] := by
  obtain ⟨names, hu, name, hname, hw⟩ := h
  rintro rfl
  exact (spellings_readable _ hu name hname).1 hw.symm

theorem Unit.IsWord.isUnitChar {u : Unit} {w : List Char} (h : u.IsWord w) :
    ∀ c ∈ w, isUnitChar c = true := by
  obtain ⟨names, hu, name, hname, hw⟩ := h
  intro c hc
  have hlower : c.toLower ∈ name.toList := hw ▸ List.mem_map_of_mem hc
  exact isUnitChar_of_toLower (List.all_eq_true.1 (spellings_readable _ hu name hname).2.1 _ hlower)

theorem Unit.IsWord.ofWord? {u : Unit} {w : List Char} (h : u.IsWord w) :
    Unit.ofWord? w = some u := by
  obtain ⟨names, hu, name, hname, hw⟩ := h
  unfold Unit.ofWord?
  rw [hw, String.ofList_toList]
  exact (spellings_readable _ hu name hname).2.2

theorem Unit.isWord_iff {u : Unit} {w : List Char} : u.IsWord w ↔ Unit.ofWord? w = some u := by
  refine ⟨Unit.IsWord.ofWord?, fun h => ?_⟩
  unfold Unit.ofWord? at h
  obtain ⟨⟨v, names⟩, hfind, rfl⟩ := Option.map_eq_some_iff.1 h
  have hmem := List.find?_some hfind
  simp only [List.contains_iff_mem] at hmem
  exact ⟨names, List.mem_of_find?_eq_some hfind, _, hmem, String.toList_ofList.symm⟩

/-! ### Kinds of characters -/

theorem toNat_of_isUnitChar {c : Char} (h : isUnitChar c = true) : 65 ≤ c.toNat := by
  unfold isUnitChar at h
  delta Char.isAlpha Char.isLower at h
  simp only [Bool.or_eq_true, Bool.and_eq_true, decide_eq_true_eq, Text.isUpper_iff] at h
  obtain (⟨h, -⟩ | ⟨h, -⟩) | rfl := h
  · exact h
  · exact Nat.le_trans (by decide) (UInt32.le_iff_toNat_le.1 h)
  · decide

theorem toNat_of_isSpace {c : Char} (h : isSpace c = true) : c.toNat ≤ 32 := by
  simp only [isSpace, Bool.or_eq_true, decide_eq_true_eq] at h
  obtain ((rfl | rfl) | rfl) | rfl := h <;> decide

theorem not_isUnitChar {c : Char} (h : c.toNat < 65) : isUnitChar c = false := by
  by_contra hc
  have := toNat_of_isUnitChar (Bool.not_eq_false _ ▸ hc)
  omega

theorem not_isSpace {c : Char} (h : 32 < c.toNat) : isSpace c = false := by
  by_contra hc
  have := toNat_of_isSpace (Bool.not_eq_false _ ▸ hc)
  omega

theorem not_isDigit {c : Char} (h : c.toNat < 48 ∨ 57 < c.toNat) : isDigit c = false := by
  by_contra hc
  have := toNat_of_isDigit (Bool.not_eq_false _ ▸ hc)
  omega

/-- The first character is of one of the kinds that come first. -/
theorem forall_head?_append {p : Char → Prop} {s t : List Char} (hs : ∀ c ∈ s, p c)
    (ht : ∀ c ∈ t.head?, p c) : ∀ c ∈ (s ++ t).head?, p c := by
  cases s with
  | nil => exact ht
  | cons c s => simpa using hs c List.mem_cons_self

theorem toNat_of_head_digits {s : List Char} (h : Json.IsDigits s) (r : List Char) :
    ∀ c ∈ (s ++ r).head?, 48 ≤ c.toNat ∧ c.toNat ≤ 57 := by
  obtain ⟨d, ds, rfl, hd⟩ := h.exists_cons
  rintro _ ⟨⟩
  exact toNat_of_isDigit hd

theorem Unit.IsWord.toNat_of_head {u : Unit} {w : List Char} (h : u.IsWord w) (r : List Char) :
    ∀ c ∈ (w ++ r).head?, 65 ≤ c.toNat := by
  obtain ⟨c, w, rfl⟩ := List.exists_cons_of_ne_nil h.ne_nil
  rintro _ ⟨⟩
  exact toNat_of_isUnitChar (h.isUnitChar c List.mem_cons_self)

/-! ### Reading -/

theorem skip_append {s : List Char} (h : AreSpaces s) (r : List Char) : skip (s ++ r) = skip r :=
  List.dropWhile_append_of_pos h

theorem skip_of_head {s : List Char} (h : ∀ c ∈ s.head?, isSpace c = false) : skip s = s :=
  Text.dropWhile_append_of_head (s := []) (List.forall_mem_nil _) h

/-- A term is read up to what follows it, if that does not go on with a letter. -/
theorem WritesTerm.readTerm {n : Nat} {u : Unit} {s r : List Char} (h : WritesTerm n u s)
    (hr : ∀ c ∈ r.head?, isUnitChar c = false) :
    ∃ digits, ofDigits digits = n ∧
      Span.readTerm (skip (s ++ r)) = .ok (⟨digits, u⟩, skip r) := by
  obtain ⟨hbefore, hdigits, hn, hbetween, hword, hafter⟩ := h
  rename_i before digits between word after
  have hstart : skip (before ++ digits ++ between ++ word ++ after ++ r) =
      digits ++ (between ++ (word ++ (after ++ r))) := by
    simp only [List.append_assoc]
    rw [skip_append hbefore, skip_of_head fun c hc => ?_]
    have := toNat_of_head_digits hdigits _ c hc
    exact not_isSpace (by omega)
  have hends : Json.EndsDigits (between ++ (word ++ (after ++ r))) := by
    refine forall_head?_append (fun c hc => not_isDigit (.inl ?_))
      (fun c hc => not_isDigit (.inr ?_))
    · have := toNat_of_isSpace (hbetween c hc)
      omega
    · have := hword.toNat_of_head _ c hc
      omega
  have hskip : skip (between ++ (word ++ (after ++ r))) = word ++ (after ++ r) := by
    rw [skip_append hbetween, skip_of_head fun c hc => ?_]
    have := hword.toNat_of_head _ c hc
    exact not_isSpace (by omega)
  have hstop : ∀ c ∈ (after ++ r).head?, isUnitChar c = false := by
    refine forall_head?_append (fun c hc => ?_) hr
    have := toNat_of_isSpace (hafter c hc)
    exact not_isUnitChar (by omega)
  refine ⟨digits, hn, ?_⟩
  rw [hstart]
  unfold Span.readTerm
  simp only [Json.takeWhile_digits hdigits hends]
  have hrest : (digits ++ (between ++ (word ++ (after ++ r)))).dropWhile isDigit = _ :=
    Json.afterDigits_digits hdigits hends
  rw [hrest, hskip, Text.takeWhile_append_of_head hword.isUnitChar hstop,
    Text.dropWhile_append_of_head hword.isUnitChar hstop, skip_append hafter]
  simp [hdigits.1, hword.ne_nil, hword.ofWord?]

theorem length_skip_le (s : List Char) : (skip s).length ≤ s.length :=
  (List.dropWhile_suffix _).length_le

/-- A term begins with a digit, and reading it takes something off the text. -/
theorem exists_digit_of_readTerm {s r : List Char} {t : Term} (h : Span.readTerm s = .ok (t, r)) :
    ∃ c s', s = c :: s' ∧ isDigit c = true ∧ r.length ≤ s'.length := by
  cases s with
  | nil => cases h
  | cons c s =>
    unfold Span.readTerm at h
    dsimp only at h
    cases hc : isDigit c with
    | false =>
      rw [List.takeWhile_cons_of_neg (by simp [hc])] at h
      cases h
    | true =>
      rw [List.dropWhile_cons_of_pos hc] at h
      have hdigits : (s.dropWhile isDigit).length ≤ s.length := (List.dropWhile_suffix _).length_le
      have hskip := length_skip_le (s.dropWhile isDigit)
      have hword : ((skip (s.dropWhile isDigit)).dropWhile isUnitChar).length ≤ _ :=
        (List.dropWhile_suffix _).length_le
      have hlast := length_skip_le ((skip (s.dropWhile isDigit)).dropWhile isUnitChar)
      refine ⟨c, s, rfl, hc, ?_⟩
      split_ifs at h
      · split at h <;> cases h <;> omega
      · split at h
        · cases h
          omega
        · cases h

theorem readOperator_digit {c : Char} (h : isDigit c = true) (s : List Char) :
    readOperator (c :: s) = some (.plus, c :: s) := by
  have hrange := toNat_of_isDigit h
  unfold readOperator
  split
  · rename_i heq
    cases heq
    exact absurd hrange (by decide)
  · rename_i heq
    cases heq
    exact absurd hrange (by decide)
  · rename_i heq
    cases heq
    exact if_pos h
  · rename_i heq
    cases heq

/-- A term behind an operator, and the terms behind it. -/
theorem readRest_cons {s r r' : List Char} {op : Operator} {t : Term}
    {more : List (Operator × Term)} (hop : readOperator s = some (op, r))
    (hle : r.length ≤ s.length) (ht : Span.readTerm r = .ok (t, r'))
    (hmore : ∀ fuel, r'.length ≤ fuel → readRest fuel r' = .ok more) :
    ∀ fuel, s.length ≤ fuel → readRest fuel s = .ok ((op, t) :: more) := by
  intro fuel hfuel
  obtain ⟨c, r, rfl, -, hlength⟩ := exists_digit_of_readTerm ht
  rw [List.length_cons] at hle
  cases s with
  | nil => cases hop
  | cons c s =>
    cases fuel with
    | zero => cases hfuel
    | succ fuel =>
      rw [List.length_cons] at hle hfuel
      simp only [readRest, hop, ht, hmore fuel (by omega)]
      rfl

theorem WritesTerm.head {n : Nat} {u : Unit} {s : List Char} (h : WritesTerm n u s)
    (r : List Char) : ∀ c ∈ (s ++ r).head?, isUnitChar c = false := by
  obtain ⟨hbefore, hdigits, -, -, -, -⟩ := h
  simp only [List.append_assoc]
  refine forall_head?_append (fun c hc => ?_) ?_
  · have := toNat_of_isSpace (hbefore c hc)
    exact not_isUnitChar (by omega)
  · intro c hc
    have := toNat_of_head_digits hdigits _ c hc
    exact not_isUnitChar (by omega)

theorem Writes.head {ts : List (Nat × Unit)} {s : List Char} (h : Writes ts s) :
    ∀ c ∈ s.head?, isUnitChar c = false := by
  cases h with
  | one h => simpa using h.head []
  | adjoined h _ => exact h.head _
  | plus h _ => exact h.head _

/-- A sum is read term by term. By induction on its terms: behind each of them, with or without a
plus sign, the rest of the sum is read. -/
theorem Writes.read {ts : List (Nat × Unit)} {s : List Char} (h : Writes ts s) :
    ∃ t more r, Span.readTerm (skip s) = .ok (t, r) ∧
      (∀ fuel, r.length ≤ fuel → readRest fuel r = .ok (more.map fun t => (.plus, t))) ∧
      amounts (t :: more) = ts := by
  induction h with
  | one h =>
    obtain ⟨digits, rfl, hread⟩ := h.readTerm (r := []) nofun
    rw [List.append_nil] at hread
    exact ⟨_, [], _, hread, fun fuel _ => by cases fuel <;> rfl, rfl⟩
  | @adjoined n u s r ts h hr ih =>
    obtain ⟨t, more, r', ht, hmore, rfl⟩ := ih
    obtain ⟨digits, rfl, hread⟩ := h.readTerm hr.head
    refine ⟨_, t :: more, _, hread, ?_, rfl⟩
    obtain ⟨c, s', hs, hc, -⟩ := exists_digit_of_readTerm ht
    have hop : readOperator (skip r) = some (.plus, skip r) := hs ▸ readOperator_digit hc s'
    exact readRest_cons hop (Nat.le_refl _) ht hmore
  | @plus n u s r ts h hr ih =>
    obtain ⟨t, more, r', ht, hmore, rfl⟩ := ih
    obtain ⟨digits, rfl, hread⟩ := h.readTerm (r := '+' :: r) (by rintro _ ⟨⟩; decide)
    have hskip : skip ('+' :: r) = '+' :: r := skip_of_head (by rintro _ ⟨⟩; decide)
    rw [hskip] at hread
    refine ⟨_, t :: more, _, hread, ?_, rfl⟩
    have hle : (skip r).length ≤ ('+' :: r).length := Nat.le_succ_of_le (length_skip_le r)
    exact readRest_cons rfl hle ht hmore

/-- The span of a written sum is the exact sum, if 64 bits of nanoseconds hold it. -/
theorem ofText_of_writes {ts : List (Nat × Unit)} {text : String} (h : Writes ts text.toList) :
    (total ts < twoTo 64 → ofText text = .ok ⟨total ts⟩) ∧
      (twoTo 64 ≤ total ts → ∃ e, ofText text = .error e) := by
  obtain ⟨t, more, r, ht, hmore, rfl⟩ := h.read
  have hne : text.toList ≠ [] := by
    intro hnil
    rw [hnil] at ht
    cases ht
  have htotal : total (amounts (t :: more)) =
      ofDigits t.digits * t.unit.nanoseconds + total (amounts more) := rfl
  unfold ofText
  simp only [List.isEmpty_iff, if_neg hne, ht, hmore _ (Nat.le_refl _), htotal]
  by_cases hfirst : ofDigits t.digits * t.unit.nanoseconds < twoTo 64
  · have hrest := restValue_comes more hfirst
    rw [t.value_comes.of_lt hfirst]
    refine ⟨fun hlt => ?_, fun hle => ?_⟩
    · simp only [hrest.of_lt hlt]
    · obtain ⟨e, he⟩ := hrest.of_le hle
      exact ⟨.value e, by simp only [he]⟩
  · obtain ⟨e, he⟩ := t.value_comes.of_le (by omega)
    rw [he]
    exact ⟨fun hlt => by omega, fun _ => ⟨.first text e, rfl⟩⟩

end Mockup.Span
