import Mockup.Proofs.Json.Range
import Mockup.Proofs.Json.Reading
import Mockup.Proofs.Number.Digit
import Mockup.Proofs.Number.Shortest

/-! The rational numbers that numerals stand for. The numeral of a decimal stands for the same
number as the decimal, with a point or with an exponent. -/

namespace Mockup

open Number

namespace Numeral

/-- The number that digits spell. -/
def ofDigits (ds : List (Fin 10)) : Nat := ds.foldl (fun n d => 10 * n + d.val) 0

/-- The value without its sign. -/
def size (n : Numeral) : ℚ :=
  (n.whole + ofDigits n.fraction / 10 ^ n.fraction.length) * 10 ^ n.exponent.getD 0

def toRat (n : Numeral) : ℚ := signed n.negative n.size

/-! ### Digits -/

theorem ofDigits_append (a b : List (Fin 10)) :
    ofDigits (a ++ b) = ofDigits a * 10 ^ b.length + ofDigits b := by
  induction b using List.reverseRecOn with
  | nil => simp [ofDigits]
  | append_singleton b d ih =>
    have hlast (a : List (Fin 10)) : ofDigits (a ++ [d]) = 10 * ofDigits a + d.val := by
      simp [ofDigits]
    rw [← List.append_assoc, hlast, ih, hlast, List.length_append, List.length_singleton, pow_succ]
    ring

theorem ofDigits_zeros (k : Nat) : ofDigits (List.replicate k 0) = 0 := by
  induction k with
  | zero => rfl
  | succ k ih =>
    rw [List.replicate_succ', ofDigits_append, ih]
    rfl

theorem ofDigits_map_digit {cs : List Char} (h : ∀ c ∈ cs, isDigit c = true) :
    ofDigits (cs.map digit) = Number.ofDigits cs := by
  unfold ofDigits Number.ofDigits
  rw [List.foldl_map]
  refine List.foldl_ext _ _ _ fun n c hc => ?_
  have := toNat_of_isDigit (h c hc)
  simp only [digit, digitValue]
  omega

theorem ofDigits_digits (n : Nat) : ofDigits ((digits n).map digit) = n :=
  (ofDigits_map_digit (Json.isDigits_digits n).2).trans (Json.ofDigits_digits n)

/-- A point between two digits. -/
theorem ofDigits_take_add_drop (ds : List (Fin 10)) (k : Nat) :
    (ofDigits (ds.take k) + ofDigits (ds.drop k) / 10 ^ (ds.drop k).length : ℚ) =
      ofDigits ds / 10 ^ (ds.drop k).length := by
  have h := ofDigits_append (ds.take k) (ds.drop k)
  rw [List.take_append_drop] at h
  rw [h]
  push_cast
  field_simp

/-! ### The numeral of a decimal -/

variable (negative : Bool) {ds : List (Fin 10)}

/-- The point stands behind a digit, and zeros fill what the digits do not reach. -/
theorem size_pointed (ds : List (Fin 10)) (k : Nat) :
    size ⟨negative, ofDigits (ds.take k) * tenTo (k - ds.length),
      if (ds.drop k).isEmpty then [0] else ds.drop k, none⟩ =
        ofDigits ds * 10 ^ ((k : Int) - ds.length) := by
  have hlength : (ds.drop k).length = ds.length - k := List.length_drop
  rcases Nat.lt_or_ge k ds.length with hk | hk
  · have hpow : ((k : Int) - ds.length) = -((ds.length - k : Nat) : Int) := by omega
    have hrest : (ds.drop k).isEmpty = false := by
      rw [List.isEmpty_eq_false_iff_exists_mem, ← List.length_pos_iff_exists_mem]
      omega
    have hsplit := ofDigits_take_add_drop ds k
    rw [hlength] at hsplit
    rw [size, hrest, Nat.sub_eq_zero_of_le hk.le, hpow, zpow_neg, zpow_natCast, ← div_eq_mul_inv,
      ← hsplit, ← hlength]
    simp [tenTo]
  · have hpow : ((k : Int) - ds.length) = ((k - ds.length : Nat) : Int) := by omega
    have hrest : ds.drop k = [] := List.drop_eq_nil_of_le hk
    rw [size, hrest, List.take_of_length_le hk, hpow, zpow_natCast]
    simp [ofDigits]

/-- The point stands before the digits, with zeros between. -/
theorem size_zeros (ds : List (Fin 10)) (k : Nat) :
    size ⟨negative, 0, List.replicate k 0 ++ ds, none⟩ =
      ofDigits ds * 10 ^ (-(k : Int) - ds.length) := by
  have hpow : (-(k : Int) - ds.length) = -((k + ds.length : Nat) : Int) := by omega
  rw [size, ofDigits_append, ofDigits_zeros, Nat.zero_mul, Nat.zero_add, List.length_append,
    List.length_replicate, hpow, zpow_neg, zpow_natCast]
  simp [div_eq_mul_inv]

/-- The point stands behind the first digit. -/
theorem size_scientific (h : ds ≠ []) (place : Int) :
    size ⟨negative, ofDigits (ds.take 1), ds.drop 1, some (place - 1)⟩ =
      ofDigits ds * 10 ^ (place - ds.length) := by
  have hlength : (ds.drop 1).length = ds.length - 1 := List.length_drop
  have hpos := List.length_pos_iff.2 h
  have hpow : place - ds.length = place - 1 - ((ds.length - 1 : Nat) : Int) := by omega
  rw [size, ofDigits_take_add_drop, hlength, Option.getD_some, hpow,
    zpow_sub₀ (by norm_num) (place - 1), zpow_natCast]
  ring

theorem size_ofDecimal (x : Decimal) : (ofDecimal x).size = x.size := by
  have hsignificand := ofDigits_digits x.significand
  have hlength : ((digits x.significand).map digit).length = (digits x.significand).length :=
    List.length_map ..
  have hsize : x.size = ofDigits ((digits x.significand).map digit) *
      10 ^ (x.pointPlace - ((digits x.significand).map digit).length) := by
    rw [hsignificand, hlength, Decimal.pointPlace, add_sub_cancel_left, Decimal.size]
  have hne : (digits x.significand).map digit ≠ [] := by
    simpa using (Json.isDigits_digits x.significand).1
  unfold ofDecimal
  dsimp only
  split
  · rename_i hzero
    simp [size, Decimal.size, hzero, ofDigits]
  · split
    · rename_i hshort
      simp only [Bool.and_eq_true, decide_eq_true_eq] at hshort
      have hplace : (x.pointPlace.toNat : Int) = x.pointPlace := Int.toNat_of_nonneg hshort.1.le
      have h := size_pointed x.negative ((digits x.significand).map digit) x.pointPlace.toNat
      rw [hplace, ← hsize] at h
      exact h
    · split
      · rename_i hsmall
        simp only [Bool.and_eq_true, decide_eq_true_eq] at hsmall
        have hplace : -(x.pointPlace.natAbs : Int) = x.pointPlace := by omega
        rw [size_zeros, hplace, hsize]
      · rw [hsize]
        exact size_scientific x.negative hne x.pointPlace

theorem toRat_ofDecimal (x : Decimal) : (ofDecimal x).toRat = x.toRat := by
  have hsign : (ofDecimal x).negative = x.negative := by
    unfold ofDecimal
    dsimp only
    split_ifs <;> rfl
  rw [toRat, Decimal.toRat, hsign, size_ofDecimal]

end Numeral

/-! ### Numbers of single precision -/

/-- A number from zero to two is written as one. -/
theorem Json.exists_ofSingle_le_two {x : Floating} (h : Format.single.IsNumber x)
    (hx : x.isBetweenZeroAnd 2 = true) :
    ∃ n, ofSingle x = number n ∧ 0 ≤ n.toRat ∧ n.toRat ≤ 2 := by
  obtain ⟨v, hv, hlow, hhigh⟩ := Floating.isBetweenZeroAnd_iff.1 hx
  cases x with
  | finite s m e =>
    obtain ⟨hm, -, -⟩ := h
    cases hv
    refine ⟨_, rfl, ?_⟩
    rw [Numeral.toRat_ofDecimal]
    obtain hzero | rfl := (signed_nonneg_iff (by positivity)).1 hlow
    · have hm : m = 0 := by simpa [zpow_ne_zero] using hzero
      rw [Decimal.shortest, if_pos hm]
      cases s <;> norm_num [Decimal.toRat, signed, Decimal.size]
    · obtain ⟨n, g, hshortest, hle⟩ := Decimal.shortest_le_two false hm hhigh
      rw [hshortest]
      refine ⟨?_, hle⟩
      change (0 : ℚ) ≤ n * 10 ^ g
      positivity
  | infinite s => cases h
  | nan => cases h

end Mockup
