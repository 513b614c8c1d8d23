import Mathlib.Algebra.Order.Field.Power
import Mathlib.Algebra.Order.Field.Rat
import Mathlib.Tactic.FieldSimp
import Mathlib.Tactic.Positivity
import Mathlib.Tactic.Ring
import Mockup.Number.Decimal

/-! The rational numbers that floating-point numbers and decimals stand for. Ratios are compared
and scaled as pairs of natural numbers, which is the same. -/

namespace Mockup.Number

/-- A number with a sign. -/
def signed (negative : Bool) (x : ℚ) : ℚ := if negative then -x else x

namespace Decimal

/-- The value without its sign. -/
def size (x : Decimal) : ℚ := x.significand * 10 ^ x.exponent

def toRat (x : Decimal) : ℚ := signed x.negative x.size

end Decimal

/-- Infinities have no value. -/
def Floating.toRat? : Floating → Option ℚ
  | finite s m e => some (signed s (m * 2 ^ e))
  | _ => none

/-! ### Ratios -/

@[simp] theorem cast_twoTo (k : Nat) : (twoTo k : ℚ) = 2 ^ k := by simp [twoTo]

@[simp] theorem cast_tenTo (k : Nat) : (tenTo k : ℚ) = 10 ^ k := by simp [tenTo]

def ratio (p : Nat × Nat) : ℚ := p.1 / p.2

theorem ratio_scaleDown (n d : Nat) (e : Int) : ratio (scaleDown n d e) = n / d / 2 ^ e := by
  cases e with
  | ofNat k =>
    rw [ratio, scaleDown, Nat.cast_mul, cast_twoTo, Int.ofNat_eq_natCast, zpow_natCast, div_div]
  | negSucc k =>
    rw [ratio, scaleDown, Nat.cast_mul, cast_twoTo, zpow_negSucc, div_inv_eq_mul]
    ring

theorem ratio_scaleDownTen (n d : Nat) (e : Int) :
    ratio (scaleDownTen n d e) = n / d / 10 ^ e := by
  cases e with
  | ofNat k =>
    rw [ratio, scaleDownTen, Nat.cast_mul, cast_tenTo, Int.ofNat_eq_natCast, zpow_natCast, div_div]
  | negSucc k =>
    rw [ratio, scaleDownTen, Nat.cast_mul, cast_tenTo, zpow_negSucc, div_inv_eq_mul]
    ring

theorem scaleDown_snd_pos (n : Nat) {d : Nat} (hd : 0 < d) (e : Int) :
    0 < (scaleDown n d e).2 := by
  cases e with
  | ofNat k => exact Nat.mul_pos hd (twoTo_pos k)
  | negSucc k => exact hd

theorem scaleDownTen_snd_pos (n : Nat) {d : Nat} (hd : 0 < d) (e : Int) :
    0 < (scaleDownTen n d e).2 := by
  cases e with
  | ofNat k => exact Nat.mul_pos hd (tenTo_pos k)
  | negSucc k => exact hd

theorem ratio_le_ratio_iff {p q : Nat × Nat} (hp : 0 < p.2) (hq : 0 < q.2) :
    ratio p ≤ ratio q ↔ p.1 * q.2 ≤ q.1 * p.2 := by
  rw [ratio, ratio, div_le_div_iff₀ (Nat.cast_pos.2 hp) (Nat.cast_pos.2 hq)]
  exact_mod_cast Iff.rfl

theorem ratio_lt_ratio_iff {p q : Nat × Nat} (hp : 0 < p.2) (hq : 0 < q.2) :
    ratio p < ratio q ↔ p.1 * q.2 < q.1 * p.2 := by
  rw [ratio, ratio, div_lt_div_iff₀ (Nat.cast_pos.2 hp) (Nat.cast_pos.2 hq)]
  exact_mod_cast Iff.rfl

/-! ### Comparison with whole numbers -/

theorem signed_nonneg_iff {s : Bool} {x : ℚ} (hx : 0 ≤ x) : 0 ≤ signed s x ↔ x = 0 ∨ s = false := by
  cases s with
  | false => simp [signed, hx]
  | true =>
    simp only [signed, if_true, Left.nonneg_neg_iff, Bool.true_eq_false, or_false]
    exact ⟨fun h => le_antisymm h hx, fun h => h.le⟩

theorem Floating.isBetweenZeroAnd_iff {x : Floating} {n : Nat} :
    x.isBetweenZeroAnd n = true ↔ ∃ v ∈ x.toRat?, 0 ≤ v ∧ v ≤ n := by
  cases x with
  | finite s m e =>
    have hle : m * (scaleDown n 1 e).2 ≤ (scaleDown n 1 e).1 ↔ (m * 2 ^ e : ℚ) ≤ n := by
      have h := ratio_le_ratio_iff (p := (m, 1)) Nat.one_pos (scaleDown_snd_pos n Nat.one_pos e)
      rw [ratio_scaleDown, ratio, Nat.cast_one, div_one, div_one, le_div_iff₀ (by positivity),
        Nat.mul_one] at h
      exact h.symm
    have hzero : (m * 2 ^ e : ℚ) = 0 ↔ m = 0 := by simp [zpow_ne_zero]
    simp only [isBetweenZeroAnd, toRat?, Bool.and_eq_true, decide_eq_true_eq, Bool.or_eq_true,
      beq_iff_eq, Bool.not_eq_true', hle, Option.mem_some_iff, exists_eq_left',
      signed_nonneg_iff (show (0 : ℚ) ≤ m * 2 ^ e by positivity), hzero]
    rw [and_comm]
    refine and_congr_right fun hs => ?_
    obtain rfl | rfl := hs
    · simp [signed]
    · exact Iff.rfl
  | infinite s => simp [isBetweenZeroAnd, toRat?]
  | nan => simp [isBetweenZeroAnd, toRat?]

end Mockup.Number
