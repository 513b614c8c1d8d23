import Mathlib.Tactic.SplitIfs
import Mockup.Number.Decimal

/-! Rounding to a format keeps magnitudes. A ratio is rounded to a number of at most its magnitude
or the next, so only one beyond the greatest exponent is rounded to an infinity. -/

namespace Mockup.Number

/-! ### Magnitudes -/

theorem log2_mul_twoTo {n : Nat} (h : n ≠ 0) (k : Nat) : (n * twoTo k).log2 = n.log2 + k := by
  induction k with
  | zero => rw [twoTo, Nat.pow_eq, Nat.pow_zero, Nat.mul_one, Nat.add_zero]
  | succ k ih =>
    have hne : n * twoTo k ≠ 0 := Nat.mul_ne_zero h (Nat.ne_of_gt (twoTo_pos k))
    have hdouble : n * twoTo (k + 1) = 2 * (n * twoTo k) := by
      simp only [twoTo, Nat.pow_eq, Nat.pow_succ]
      rw [← Nat.mul_assoc, Nat.mul_comm]
    rw [hdouble, Nat.log2_two_mul hne, ih, Nat.add_assoc]

theorem log2_mul_le (m n : Nat) : (m * n).log2 ≤ m.log2 + n.log2 + 1 := by
  by_cases h : m * n = 0
  · rw [h]
    exact Nat.zero_le _
  · have hlt : m * n < 2 ^ (m.log2 + 1) * 2 ^ (n.log2 + 1) :=
      Nat.mul_lt_mul_of_lt_of_lt Nat.lt_log2_self Nat.lt_log2_self
    rw [← Nat.pow_add] at hlt
    have := (Nat.log2_lt h).2 hlt
    omega

/-- The magnitude of a ratio: its binary logarithm, give or take one. -/
def magnitude (n d : Nat) : Int := n.log2 - d.log2

theorem magnitude_scaleDown {n d : Nat} (hn : n ≠ 0) (hd : d ≠ 0) (e : Int) :
    (scaleDown n d e).1 ≠ 0 ∧ (scaleDown n d e).2 ≠ 0 ∧
      magnitude (scaleDown n d e).1 (scaleDown n d e).2 = magnitude n d - e := by
  unfold magnitude
  cases e with
  | ofNat k =>
    refine ⟨hn, Nat.mul_ne_zero hd (Nat.ne_of_gt (twoTo_pos k)), ?_⟩
    dsimp only [scaleDown]
    rw [log2_mul_twoTo hd, Int.ofNat_eq_natCast]
    omega
  | negSucc k =>
    refine ⟨Nat.mul_ne_zero hn (Nat.ne_of_gt (twoTo_pos _)), hd, ?_⟩
    dsimp only [scaleDown]
    rw [log2_mul_twoTo hn]
    omega

theorem binaryLog_le (n d : Nat) : binaryLog n d ≤ magnitude n d := by
  unfold binaryLog magnitude
  dsimp only
  split_ifs <;> omega

/-- A quotient is rounded to a number of its magnitude or the next. -/
theorem log2_roundDiv_le {n d : Nat} {k : Nat} (hd : d ≠ 0) (h : magnitude n d < k) :
    (roundDiv n d).log2 ≤ k := by
  have hquotient : n / d < 2 ^ k := by
    refine Nat.div_lt_of_lt_mul ?_
    calc n < 2 ^ (n.log2 + 1) := Nat.lt_log2_self
      _ ≤ 2 ^ (d.log2 + k) := Nat.pow_le_pow_right (by decide) (by unfold magnitude at h; omega)
      _ = 2 ^ d.log2 * 2 ^ k := Nat.pow_add ..
      _ ≤ d * 2 ^ k := Nat.mul_le_mul_right _ (Nat.log2_self_le hd)
  have hround : roundDiv n d ≤ 2 ^ k := by
    unfold roundDiv
    dsimp only
    split_ifs <;> omega
  by_cases hzero : roundDiv n d = 0
  · rw [hzero]
    exact Nat.zero_le _
  · refine Nat.le_of_lt_succ ((Nat.log2_lt hzero).2 (Nat.lt_of_le_of_lt hround ?_))
    exact Nat.pow_lt_pow_right (by decide) (Nat.lt_succ_self k)

/-! ### Numbers of a format -/

/-- A number of the format, and no infinity. -/
def Format.IsNumber (f : Format) : Floating → Prop
  | .finite _ m e => m < twoTo f.precision ∧ f.minExponent ≤ e ∧ e ≤ f.maxExponent
  | _ => False

instance (f : Format) (x : Floating) : Decidable (f.IsNumber x) :=
  match x with
  | .finite _ m e =>
    inferInstanceAs (Decidable (m < twoTo f.precision ∧ f.minExponent ≤ e ∧ e ≤ f.maxExponent))
  | .infinite _ | .nan => inferInstanceAs (Decidable False)

variable {f : Format}

theorem round_zero (f : Format) (negative : Bool) (d : Nat) :
    f.round negative 0 d = .finite negative 0 f.minExponent := if_pos rfl

/-- Below the greatest exponent nothing is rounded to an infinity. -/
theorem exists_finite_of_round (negative : Bool) {n d : Nat} (hn : n ≠ 0) (hd : d ≠ 0)
    (hp : 0 < f.precision) (hmin : f.minExponent < f.maxExponent)
    (hmax : magnitude n d + 2 ≤ f.maxExponent + f.precision) :
    ∃ m e, f.round negative n d = .finite negative m e ∧
      (m.log2 : Int) + e ≤ max f.minExponent (magnitude n d + 1) := by
  have hlog := binaryLog_le n d
  obtain ⟨e, he⟩ : ∃ e, e = max f.minExponent (binaryLog n d - (f.precision - 1)) := ⟨_, rfl⟩
  obtain ⟨-, hb, hscale⟩ := magnitude_scaleDown hn hd e
  have hm : (roundDiv (scaleDown n d e).1 (scaleDown n d e).2).log2 ≤
      (magnitude n d - e + 1).toNat := log2_roundDiv_le hb (by omega)
  unfold Format.round
  rw [if_neg hn]
  dsimp only
  rw [← he]
  split_ifs with hcarry hlarge hlarge
  · simp only at hlarge
    omega
  · rw [hcarry, twoTo, Nat.pow_eq, Nat.log2_two_pow] at hm
    refine ⟨_, _, rfl, ?_⟩
    rw [twoTo, Nat.pow_eq, Nat.log2_two_pow]
    omega
  · simp only at hlarge
    omega
  · refine ⟨_, _, rfl, ?_⟩
    dsimp only
    omega

/-- A product of two numbers is finite if their magnitudes leave room for it. -/
theorem isFinite_multiply {s t : Bool} {m n : Nat} {e d : Int}
    (hp : 0 < f.precision) (hmin : f.minExponent < f.maxExponent)
    (h : (m.log2 + e) + (n.log2 + d) + 3 ≤ f.maxExponent + f.precision) :
    (Floating.multiply f (.finite s m e) (.finite t n d)).isFinite = true := by
  rw [Floating.multiply]
  by_cases hzero : m * n = 0
  · rw [hzero]
    cases -(e + d) <;> simp only [scaleDown, Nat.zero_mul, round_zero, Floating.isFinite]
  · obtain ⟨ha, hb, hscale⟩ := magnitude_scaleDown hzero Nat.one_ne_zero (-(e + d))
    have hle := log2_mul_le m n
    have hone : magnitude (m * n) 1 = (m * n).log2 := Int.sub_zero _
    obtain ⟨k, g, hround, -⟩ := exists_finite_of_round (s != t) ha hb hp hmin (by omega)
    change (f.round (s != t) (scaleDown (m * n) 1 (-(e + d))).1
      (scaleDown (m * n) 1 (-(e + d))).2).isFinite = true
    rw [hround]
    rfl

end Mockup.Number
