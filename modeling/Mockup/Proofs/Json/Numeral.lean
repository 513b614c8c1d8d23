import Mathlib.Data.List.TakeWhile
import Mathlib.Tactic.SplitIfs
import Mockup.Proofs.Json.Text
import Mockup.Proofs.Text.Words

/-! The reader of numbers. A numeral is read to its end, which nothing that could belong to it may
follow, and what is taken off a text is a numeral. -/

namespace Mockup.Json

/-! ### Digits -/

/-- The text does not go on with a digit. -/
def EndsDigits (s : List Char) : Prop := ∀ c ∈ s.head?, Number.isDigit c = false

/-- The text does not go on with what could belong to a fraction or to the digits before one. -/
def EndsFraction (s : List Char) : Prop := EndsDigits s ∧ s.head? ≠ some '.'

/-- The text does not go on with what could belong to a number. -/
def EndsNumber (s : List Char) : Prop :=
  EndsFraction s ∧ s.head? ≠ some 'e' ∧ s.head? ≠ some 'E'

theorem takeWhile_digits {w s : List Char} (hw : IsDigits w) (hs : EndsDigits s) :
    (w ++ s).takeWhile Number.isDigit = w := Text.takeWhile_append_of_head hw.2 hs

theorem afterDigits_digits {w s : List Char} (hw : IsDigits w) (hs : EndsDigits s) :
    afterDigits (w ++ s) = s := Text.dropWhile_append_of_head hw.2 hs

theorem isDigits_takeWhile {s : List Char} (h : s.takeWhile Number.isDigit ≠ []) :
    IsDigits (s.takeWhile Number.isDigit) := ⟨h, fun _ => List.mem_takeWhile_imp⟩

theorem digits_append_afterDigits (s : List Char) :
    s.takeWhile Number.isDigit ++ afterDigits s = s := List.takeWhile_append_dropWhile

/-! ### The parts of a numeral -/

/-- The part before the point. -/
def readWhole? (s : List Char) : Option (Nat × List Char) :=
  let ds := s.takeWhile Number.isDigit
  if ds.isEmpty || (ds.length ≠ 1 && ds.head? = some '0') then none
  else some (Number.ofDigits ds, afterDigits s)

/-- The part from the point on, if there is one. -/
def readFraction? : List Char → Option (List (Fin 10) × List Char)
  | '.' :: s => if (digitsOf s).isEmpty then none else some (digitsOf s, afterDigits s)
  | s => some ([], s)

theorem readWhole?_append {w r : List Char} {n : Nat} (hw : IsWhole w n) (hr : EndsDigits r) :
    readWhole? (w ++ r) = some (n, r) := by
  obtain ⟨hdigits, hzero, rfl⟩ := hw
  unfold readWhole?
  rw [takeWhile_digits hdigits hr, afterDigits_digits hdigits hr]
  refine if_neg ?_
  simp only [Bool.or_eq_true, List.isEmpty_iff, Bool.and_eq_true, decide_eq_true_eq, not_or,
    not_and, hdigits.1, not_false_eq_true, true_and]
  intro hlength hhead
  rw [hzero hhead] at hlength
  exact hlength rfl

theorem exists_whole_of_readWhole? {s r : List Char} {n : Nat}
    (h : readWhole? s = some (n, r)) : ∃ w, IsWhole w n ∧ s = w ++ r := by
  unfold readWhole? at h
  dsimp only at h
  split_ifs at h with hbad
  cases h
  simp only [Bool.or_eq_true, List.isEmpty_iff, Bool.and_eq_true, decide_eq_true_eq, not_or,
    not_and] at hbad
  refine ⟨_, ⟨isDigits_takeWhile hbad.1, fun hhead => ?_, rfl⟩, (digits_append_afterDigits s).symm⟩
  by_contra hne
  have hone : (s.takeWhile Number.isDigit).length = 1 := by
    by_contra hlength
    exact hbad.2 hlength hhead
  obtain ⟨c, hc⟩ := List.length_eq_one_iff.1 hone
  rw [hc] at hhead hne
  cases hhead
  exact hne rfl

theorem readFraction?_append {w r : List Char} {ds : List (Fin 10)} (hw : IsFraction w ds)
    (hr : EndsFraction r) : readFraction? (w ++ r) = some (ds, r) := by
  cases hw with
  | none =>
    rw [List.nil_append, readFraction?]
    rintro s rfl
    exact hr.2 rfl
  | point h =>
    rw [List.cons_append, readFraction?, digitsOf, takeWhile_digits h hr.1,
      afterDigits_digits h hr.1]
    exact if_neg (by simp [h.1])

theorem exists_fraction_of_readFraction? {s r : List Char} {ds : List (Fin 10)}
    (h : readFraction? s = some (ds, r)) : ∃ w, IsFraction w ds ∧ s = w ++ r := by
  unfold readFraction? at h
  split at h
  · rename_i s
    split_ifs at h with hempty
    cases h
    refine ⟨_, .point (isDigits_takeWhile ?_), congrArg _ (digits_append_afterDigits s).symm⟩
    rintro hnil
    simp [digitsOf, hnil] at hempty
  · cases h
    exact ⟨[], .none, rfl⟩

/-! ### The exponent -/

theorem IsDigits.exists_cons {w : List Char} (h : IsDigits w) :
    ∃ d ds, w = d :: ds ∧ Number.isDigit d = true := by
  obtain ⟨d, ds, rfl⟩ := List.exists_cons_of_ne_nil h.1
  exact ⟨d, ds, rfl, h.2 d List.mem_cons_self⟩

theorem readSign_digits {w : List Char} (h : IsDigits w) (s : List Char) :
    Number.readSign (w ++ s) = (false, w ++ s) := by
  obtain ⟨d, ds, rfl, hd⟩ := h.exists_cons
  rw [List.cons_append, Number.readSign]
  · rintro _ ⟨⟩
    exact absurd hd (by decide)
  · rintro _ ⟨⟩
    exact absurd hd (by decide)

theorem readExponent?_append {w r : List Char} {x : Option Int} (hw : IsExponent w x)
    (hr : EndsNumber r) : readExponent? (w ++ r) = some (x, r) := by
  obtain ⟨⟨hdigit, -⟩, hsmall, hlarge⟩ := hr
  cases hw with
  | none =>
    cases r with
    | nil => rfl
    | cons c r =>
      exact if_neg (by simpa using And.intro hsmall hlarge)
  | unsigned he h =>
    rw [List.cons_append, readExponent?, if_pos (by simpa using he), readSign_digits h]
    simp only [takeWhile_digits h hdigit, afterDigits_digits h hdigit]
    simp [h.1]
  | plus he h =>
    rw [List.cons_append, readExponent?, if_pos (by simpa using he), List.cons_append,
      Number.readSign]
    simp only [takeWhile_digits h hdigit, afterDigits_digits h hdigit]
    simp [h.1]
  | minus he h =>
    rw [List.cons_append, readExponent?, if_pos (by simpa using he), List.cons_append,
      Number.readSign]
    simp only [takeWhile_digits h hdigit, afterDigits_digits h hdigit]
    simp [h.1]

theorem eq_of_readSign {s t : List Char} {negative : Bool}
    (h : Number.readSign s = (negative, t)) :
    s = '-' :: t ∧ negative = true ∨ (s = '+' :: t ∨ s = t) ∧ negative = false := by
  unfold Number.readSign at h
  split at h <;> cases h
  · exact .inl ⟨rfl, rfl⟩
  · exact .inr ⟨.inl rfl, rfl⟩
  · exact .inr ⟨.inr rfl, rfl⟩

theorem exists_exponent_of_readExponent? {s r : List Char} {x : Option Int}
    (h : readExponent? s = some (x, r)) : ∃ w, IsExponent w x ∧ s = w ++ r := by
  cases s with
  | nil =>
    cases h
    exact ⟨[], .none, rfl⟩
  | cons e s =>
    rw [readExponent?] at h
    split_ifs at h with he
    · simp only [Bool.or_eq_true, decide_eq_true_eq] at he
      obtain ⟨negative, t, hsign⟩ : ∃ negative t, Number.readSign s = (negative, t) := ⟨_, _, rfl⟩
      simp only [hsign] at h
      split_ifs at h with hempty hneg
      all_goals
        cases h
        have ht : IsDigits (t.takeWhile Number.isDigit) :=
          isDigits_takeWhile (by simpa using hempty)
        have hsplit := digits_append_afterDigits t
      · obtain ⟨rfl, -⟩ | ⟨-, hfalse⟩ := eq_of_readSign hsign
        · exact ⟨_, .minus he ht, by simp [hsplit]⟩
        · rw [hfalse] at hneg
          cases hneg
      · obtain ⟨-, htrue⟩ | ⟨rfl | rfl, -⟩ := eq_of_readSign hsign
        · exact absurd htrue hneg
        · exact ⟨_, .plus he ht, by simp [hsplit]⟩
        · exact ⟨_, .unsigned he ht, by simp [hsplit]⟩
    · cases h
      exact ⟨[], .none, rfl⟩

/-! ### Numerals -/

theorem IsExponent.endsFraction {w r : List Char} {x : Option Int} (h : IsExponent w x)
    (hr : EndsNumber r) : EndsFraction (w ++ r) := by
  have hletter {e : Char} {s : List Char} (he : e = 'e' ∨ e = 'E') : EndsFraction (e :: s) := by
    rcases he with rfl | rfl <;> simp [EndsFraction, EndsDigits, Number.isDigit]
  cases h with
  | none => exact hr.1
  | unsigned he _ | plus he _ | minus he _ => exact hletter he

theorem IsFraction.endsDigits {w r : List Char} {ds : List (Fin 10)} (h : IsFraction w ds)
    (hr : EndsFraction r) : EndsDigits (w ++ r) := by
  cases h with
  | none => exact hr.1
  | point _ =>
    rintro c ⟨⟩
    rfl

theorem readUnsigned?_eq (negative : Bool) (s : List Char) : readUnsigned? negative s =
    (readWhole? s).bind fun (whole, s) => (readFraction? s).bind fun (fraction, s) =>
      (readExponent? s).bind fun (exponent, s) =>
        let n : Numeral := ⟨negative, whole, fraction, exponent⟩
        if n.toInt?.isNone && n.toDouble?.isNone then none else some (n, s) := by
  unfold readUnsigned? readWhole?
  dsimp only [Option.bind_eq_bind, Option.pure_def]
  split_ifs
  · rfl
  · rw [Option.bind_some]
    split
    · rename_i hpoint
      simp only [hpoint, readFraction?]
      split_ifs <;> rfl
    · rename_i hpoint
      rw [readFraction?]
      · rfl
      · exact hpoint

theorem isNone_and_isNone_iff (n : Numeral) :
    (n.toInt?.isNone && n.toDouble?.isNone) = true ↔ ¬InRange n := by
  simp only [InRange, Bool.and_eq_true, Option.isNone_iff_eq_none, not_or,
    Option.isSome_iff_ne_none, not_not]

theorem readUnsigned?_append {negative : Bool} {w r : List Char} {n : Numeral}
    (hw : IsUnsigned negative w n) (hn : InRange n) (hr : EndsNumber r) :
    readUnsigned? negative (w ++ r) = some (n, r) := by
  obtain ⟨hi, hf, he⟩ := hw
  have hfraction := he.endsFraction hr
  have hrange : ¬(_ : Bool) = true := fun h => (isNone_and_isNone_iff _).1 h hn
  rw [readUnsigned?_eq, List.append_assoc, List.append_assoc,
    readWhole?_append hi (hf.endsDigits hfraction)]
  simp only [Option.bind_some, readFraction?_append hf hfraction, readExponent?_append he hr]
  exact if_neg hrange

theorem exists_unsigned_of_readUnsigned? {negative : Bool} {s r : List Char} {n : Numeral}
    (h : readUnsigned? negative s = some (n, r)) :
    ∃ w, IsUnsigned negative w n ∧ InRange n ∧ s = w ++ r := by
  simp only [readUnsigned?_eq, Option.bind_eq_some_iff, Prod.exists] at h
  obtain ⟨whole, s, hwhole, fraction, s', hfraction, exponent, s'', hexponent, h⟩ := h
  split_ifs at h with hrange
  cases h
  rw [isNone_and_isNone_iff, not_not] at hrange
  obtain ⟨i, hi, rfl⟩ := exists_whole_of_readWhole? hwhole
  obtain ⟨f, hf, rfl⟩ := exists_fraction_of_readFraction? hfraction
  obtain ⟨e, he, rfl⟩ := exists_exponent_of_readExponent? hexponent
  exact ⟨_, .parts hi hf he, hrange, by simp⟩

end Mockup.Json
