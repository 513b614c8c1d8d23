import Mathlib.Tactic.Linarith
import Mathlib.Tactic.NormNum
import Mockup.Proofs.Number.Value

/-! The shortest decimal of a floating-point number. It is looked for on finer and finer grids, and
found: it is no further from the number than half of the number's unit. -/

namespace Mockup.Number.Decimal

variable {closed : Bool} {v lo hi d c : Nat} {g : Int}

/-! ### Neighbours -/

/-- Between two ends, which may count or not. -/
def Between (closed : Bool) (lo hi x : ℚ) : Prop :=
  if closed then lo ≤ x ∧ x ≤ hi else lo < x ∧ x < hi

theorem Between.le {lo hi x : ℚ} (h : Between closed lo hi x) : lo ≤ x ∧ x ≤ hi := by
  cases closed with
  | false => exact ⟨h.1.le, h.2.le⟩
  | true => exact h

theorem between_of_lt {lo hi x : ℚ} (hlo : lo < x) (hhi : x < hi) : Between closed lo hi x := by
  cases closed with
  | false => exact ⟨hlo, hhi⟩
  | true => exact ⟨hlo.le, hhi.le⟩

/-- The point `c` of the grid lies between the ends. -/
def inside (closed : Bool) (lo hi d : Nat) (g : Int) (c : Nat) : Bool :=
  let (a, b) := scaleDownTen c 1 (-g)
  if closed then lo * b ≤ a * d && a * d ≤ hi * b else lo * b < a * d && a * d < hi * b

theorem inside_iff (hd : 0 < d) :
    inside closed lo hi d g c = true ↔ Between closed (lo / d) (hi / d) (c * 10 ^ g) := by
  have hp := scaleDownTen_snd_pos c Nat.one_pos (-g)
  have hratio : ratio (scaleDownTen c 1 (-g)) = c * 10 ^ g := by
    rw [ratio_scaleDownTen, Nat.cast_one, div_one, zpow_neg, div_inv_eq_mul]
  rw [← hratio]
  unfold inside Between
  cases closed with
  | false =>
    simp only [Bool.false_eq_true, if_false, Bool.and_eq_true, decide_eq_true_eq]
    exact and_congr (ratio_lt_ratio_iff (p := (lo, d)) hd hp).symm
      (ratio_lt_ratio_iff (q := (hi, d)) hp hd).symm
  | true =>
    simp only [if_true, Bool.and_eq_true, decide_eq_true_eq]
    exact and_congr (ratio_le_ratio_iff (p := (lo, d)) hd hp).symm
      (ratio_le_ratio_iff (q := (hi, d)) hp hd).symm

/-- The point of the grid at or below the number. -/
def below (v d : Nat) (g : Int) : Nat := (scaleDownTen v d g).1 / (scaleDownTen v d g).2

theorem below_le (hd : 0 < d) : (below v d g * 10 ^ g : ℚ) ≤ v / d := by
  have hp := scaleDownTen_snd_pos v hd g
  have h : ratio (below v d g, 1) ≤ ratio (scaleDownTen v d g) := by
    rw [ratio_le_ratio_iff Nat.one_pos hp, Nat.mul_one]
    exact Nat.div_mul_le_self _ _
  rwa [ratio_scaleDownTen, ratio, Nat.cast_one, div_one, le_div_iff₀ (by positivity)] at h

theorem lt_below_succ (hd : 0 < d) : (v / d : ℚ) < (below v d g + 1 : Nat) * 10 ^ g := by
  have hp := scaleDownTen_snd_pos v hd g
  have h : ratio (scaleDownTen v d g) < ratio (below v d g + 1, 1) := by
    rw [ratio_lt_ratio_iff hp Nat.one_pos, Nat.mul_one]
    exact (Nat.div_lt_iff_lt_mul hp).1 (Nat.lt_succ_self _)
  rwa [ratio_scaleDownTen, ratio, Nat.cast_one, div_one, div_lt_iff₀ (by positivity)] at h

/-- The point above the number is the nearer one, or as near and even. -/
def leansUp (v d : Nat) (g : Int) : Bool :=
  let p := scaleDownTen v d g
  let r := 2 * (p.1 % p.2)
  p.2 < r || (r == p.2 && below v d g % 2 == 1)

theorem neighbour?_eq (closed : Bool) (v lo hi d : Nat) (g : Int) :
    neighbour? closed v lo hi d g =
      match inside closed lo hi d g (below v d g), inside closed lo hi d g (below v d g + 1) with
      | true, true => some (if leansUp v d g then below v d g + 1 else below v d g)
      | true, false => some (below v d g)
      | false, true => some (below v d g + 1)
      | false, false => none := rfl

theorem between_of_neighbour? (hd : 0 < d) (h : neighbour? closed v lo hi d g = some c) :
    Between closed (lo / d) (hi / d) (c * 10 ^ g) := by
  rw [← inside_iff hd]
  rw [neighbour?_eq] at h
  split at h
  · split at h <;> cases h <;> assumption
  · cases h
    assumption
  · cases h
    assumption
  · cases h

/-- On a grid that is fine enough, the point above the number lies before the upper end. -/
theorem exists_neighbour? (closed : Bool) (hd : 0 < d) (hlo : lo < v) (hhi : (v / d : ℚ) + 10 ^ g < hi / d) :
    ∃ c, neighbour? closed v lo hi d g = some c := by
  have hgrid : (0 : ℚ) < 10 ^ g := by positivity
  have hup := lt_below_succ (v := v) (g := g) hd
  have hdown := below_le (v := v) (g := g) hd
  have hfrom : (lo / d : ℚ) < v / d :=
    div_lt_div_of_pos_right (Nat.cast_lt.2 hlo) (Nat.cast_pos.2 hd)
  have hinside : inside closed lo hi d g (below v d g + 1) = true := by
    rw [inside_iff hd]
    refine between_of_lt (by linarith) ?_
    push_cast
    linarith
  rw [neighbour?_eq, hinside]
  cases inside closed lo hi d g (below v d g) with
  | true => exact ⟨_, rfl⟩
  | false => exact ⟨_, rfl⟩

/-! ### Grids -/

/-- Grids are tried one after another, so one with a neighbour inside is not passed by. -/
theorem exists_firstGrid {fuel k : Nat} {start : Int} (hk : k < fuel)
    (h : ∃ c, neighbour? closed v lo hi d (start - k) = some c) :
    ∃ c g, firstGrid closed v lo hi d fuel start = some (c, g) := by
  induction fuel generalizing start k with
  | zero => cases hk
  | succ fuel ih =>
    rw [firstGrid]
    cases hfirst : neighbour? closed v lo hi d start with
    | some c => exact ⟨c, start, rfl⟩
    | none =>
      cases k with
      | zero =>
        obtain ⟨c, hc⟩ := h
        rw [Int.natCast_zero, Int.sub_zero, hfirst] at hc
        cases hc
      | succ k =>
        refine ih (Nat.lt_of_succ_lt_succ hk) ?_
        rwa [Int.sub_sub, Int.add_comm 1, ← Int.natCast_succ]

/-- The grid that is found is no coarser than the first one. -/
theorem exists_neighbour_of_firstGrid {fuel : Nat} {start : Int}
    (h : firstGrid closed v lo hi d fuel start = some (c, g)) :
    g ≤ start ∧ neighbour? closed v lo hi d g = some c := by
  induction fuel generalizing start with
  | zero => cases h
  | succ fuel ih =>
    rw [firstGrid] at h
    split at h
    · rename_i hc
      cases h
      exact ⟨Int.le_refl _, hc⟩
    · obtain ⟨hle, hc⟩ := ih h
      exact ⟨by omega, hc⟩

theorem between_of_firstGrid {fuel : Nat} {start : Int} (hd : 0 < d)
    (h : firstGrid closed v lo hi d fuel start = some (c, g)) :
    Between closed (lo / d) (hi / d) (c * 10 ^ g) :=
  between_of_neighbour? hd (exists_neighbour_of_firstGrid h).2

theorem tenTo_pred_length_digits_le {n : Nat} (h : 0 < n) : tenTo ((digits n).length - 1) ≤ n := by
  by_cases hone : (digits n).length - 1 = 0
  · rw [hone]
    exact h
  · by_contra hlt
    have hle := (Nat.length_toDigits_le_iff (n := n) (by decide) (Nat.pos_of_ne_zero hone)).2
      (Nat.lt_of_not_le hlt)
    have : 0 < (digits n).length := Nat.length_toDigits_pos
    change (digits n).length ≤ _ at hle
    omega

theorem lt_tenTo_length_digits (n : Nat) : n < tenTo (digits n).length :=
  (Nat.length_toDigits_le_iff (by decide) Nat.length_toDigits_pos).1 (Nat.le_refl _)

/-- The grid to start with is no coarser than the number. -/
theorem tenTo_decimalLog_le {n d : Nat} (hn : 0 < n) (hd : 0 < d) :
    (10 : ℚ) ^ decimalLog n d ≤ n / d := by
  have hn' : (0 : ℚ) < n := Nat.cast_pos.2 hn
  have hd' : (0 : ℚ) < d := Nat.cast_pos.2 hd
  unfold decimalLog
  split
  · rename_i hle
    have hquotient := tenTo_pred_length_digits_le (Nat.div_pos hle hd)
    have hlength : 0 < (digits (n / d)).length := Nat.length_toDigits_pos
    have hpow : ((digits (n / d)).length : Int) - 1 = ((digits (n / d)).length - 1 : Nat) := by
      omega
    rw [hpow, zpow_natCast, le_div_iff₀ hd', ← cast_tenTo]
    exact_mod_cast Nat.le_trans (Nat.mul_le_mul_right d hquotient) (Nat.div_mul_le_self n d)
  · rename_i hlt
    dsimp only
    split
    · rename_i hone
      have hceil := Nat.lt_mul_div_succ (d + n - 1) hn
      rw [hone] at hceil
      omega
    · rw [zpow_neg, zpow_natCast, inv_le_comm₀ (by positivity) (by positivity), inv_div,
        div_le_iff₀ hn', ← cast_tenTo]
      have hceil := Nat.lt_mul_div_succ (d + n - 1) hn
      have hdigits := lt_tenTo_length_digits ((d + n - 1) / n - 1)
      rw [Nat.mul_add, Nat.mul_one] at hceil
      have hgrid : n * ((d + n - 1) / n) ≤ n * tenTo (digits ((d + n - 1) / n - 1)).length :=
        Nat.mul_le_mul_left n (by omega)
      rw [Nat.mul_comm n (tenTo _)] at hgrid
      exact_mod_cast show d ≤ _ by omega

theorem size_trimZeros (fuel n : Nat) (e : Int) :
    ((trimZeros fuel n e).1 * 10 ^ (trimZeros fuel n e).2 : ℚ) = n * 10 ^ e := by
  induction fuel generalizing n e with
  | zero => rfl
  | succ fuel ih =>
    rw [trimZeros]
    split
    · rename_i h
      have hn : (n : ℚ) = (n / 10 : Nat) * 10 := by
        exact_mod_cast (Nat.div_mul_cancel (Nat.dvd_of_mod_eq_zero h.2)).symm
      rw [ih, zpow_add_one₀ (by norm_num), hn]
      ring
    · rfl

/-! ### The shortest decimal -/

/-- A quarter of the unit, as a ratio. -/
structure IsQuarter (e : Int) (u d : Nat) : Prop where
  num_pos : 0 < u
  den_pos : 0 < d
  ratio_eq : (u / d : ℚ) = 2 ^ e / 4

theorem isQuarter_scaleDown (e : Int) :
    IsQuarter e (scaleDown 1 1 (2 - e)).1 (scaleDown 1 1 (2 - e)).2 := by
  have hd := scaleDown_snd_pos 1 Nat.one_pos (2 - e)
  have hratio : ratio (scaleDown 1 1 (2 - e)) = 2 ^ e / 4 := by
    rw [ratio_scaleDown, Nat.cast_one, div_one, zpow_sub₀ (by norm_num)]
    norm_num
  refine ⟨Nat.pos_of_ne_zero fun hu => ?_, hd, hratio⟩
  have hunit : (0 : ℚ) < 2 ^ e / 4 := by positivity
  rw [← hratio, ratio, hu, Nat.cast_zero, zero_div] at hunit
  exact hunit.false

namespace IsQuarter

variable {e : Int} {u m lower : Nat}

theorem mul_div (h : IsQuarter e u d) (n : Nat) : ((n * u : Nat) / d : ℚ) = n / 4 * 2 ^ e := by
  rw [Nat.cast_mul, mul_div_assoc, h.ratio_eq]
  ring

/-- Sixteen grids below the first, a step is finer than half a unit. -/
theorem grid_lt (h : IsQuarter e u d) (hm : 0 < m) (hlt : m < twoTo 24) :
    (10 : ℚ) ^ (decimalLog (4 * m * u) d - (16 : Nat)) < 1 / 2 * 2 ^ e := by
  have hunit : (0 : ℚ) < 2 ^ e := by positivity
  have hlog := tenTo_decimalLog_le (n := 4 * m * u)
    (Nat.mul_pos (Nat.mul_pos (by decide) hm) h.num_pos) h.den_pos
  rw [h.mul_div, Nat.cast_mul] at hlog
  have hm' : (m : ℚ) ≤ 2 ^ 24 := by exact_mod_cast Nat.le_of_lt hlt
  have hle : (m * 2 ^ e : ℚ) ≤ 2 ^ 24 * 2 ^ e := mul_le_mul_of_nonneg_right hm' hunit.le
  rw [zpow_sub₀ (by norm_num), zpow_natCast, div_lt_iff₀ (by norm_num)]
  push_cast at hlog
  linarith

/-- The number has a neighbour on one of the grids, and it is no further away than half a unit. -/
theorem exists_neighbour (closed : Bool) (h : IsQuarter e u d) (hm : 0 < m) (hlt : m < twoTo 24)
    (hpos : 0 < lower) (hle : lower ≤ 2) :
    ∃ c g, firstGrid closed (4 * m * u) ((4 * m - lower) * u) ((4 * m + 2) * u) d 17
        (decimalLog (4 * m * u) d) = some (c, g) ∧
      ((m - 1 / 2) * 2 ^ e : ℚ) ≤ c * 10 ^ g ∧ (c * 10 ^ g : ℚ) ≤ (m + 1 / 2) * 2 ^ e := by
  have hunit : (0 : ℚ) < 2 ^ e := by positivity
  have hfine := h.grid_lt hm hlt
  have hlo : (4 * m - lower) * u < 4 * m * u :=
    Nat.mul_lt_mul_of_pos_right (by omega) h.num_pos
  have hhi : ((4 * m * u : Nat) / d : ℚ) + 10 ^ (decimalLog (4 * m * u) d - (16 : Nat)) <
      ((4 * m + 2) * u : Nat) / d := by
    rw [h.mul_div, h.mul_div]
    push_cast
    linarith
  obtain ⟨c, g, hgrid⟩ := exists_firstGrid (k := 16) (show 16 < 17 by decide)
    (exists_neighbour? closed h.den_pos hlo hhi)
  obtain ⟨hdown, hup⟩ := (between_of_firstGrid h.den_pos hgrid).le
  refine ⟨c, g, hgrid, le_trans ?_ hdown, hup.trans ?_⟩
  · have hlower : (lower : ℚ) ≤ 2 := by exact_mod_cast hle
    rw [h.mul_div, Nat.cast_sub (by omega)]
    push_cast
    refine mul_le_mul_of_nonneg_right ?_ hunit.le
    linarith
  · rw [h.mul_div]
    push_cast
    exact le_of_eq (by ring)

end IsQuarter

/-- The shortest decimal is found, and it is no further from the number than half a unit. -/
theorem exists_shortest (f : Format) (negative : Bool) {m : Nat} (e : Int) (hm : m ≠ 0)
    (hlt : m < twoTo 24) :
    ∃ n g, shortest f negative m e = ⟨negative, n, g⟩ ∧
      ((m - 1 / 2) * 2 ^ e : ℚ) ≤ n * 10 ^ g ∧ (n * 10 ^ g : ℚ) ≤ (m + 1 / 2) * 2 ^ e := by
  obtain ⟨lower, hlower, hpos, hle⟩ : ∃ lower,
      (if m = twoTo (f.precision - 1) && f.minExponent < e then 1 else 2) = lower ∧
        0 < lower ∧ lower ≤ 2 := by
    split <;> exact ⟨_, rfl, by decide, by decide⟩
  obtain ⟨c, g, hgrid, hbetween⟩ := (isQuarter_scaleDown e).exists_neighbour
    (m % 2 == 0) (Nat.pos_of_ne_zero hm) hlt hpos hle
  rw [← size_trimZeros 20 c g] at hbetween
  refine ⟨_, _, ?_, hbetween⟩
  unfold shortest
  rw [if_neg hm, hlower]
  dsimp only
  rw [hgrid]

/-! ### Up to two -/

/-- A number below two is so by a whole unit, if it is not zero. -/
theorem add_half_le_two {m : Nat} {e : Int} (hm : m ≠ 0) (h : (m * 2 ^ e : ℚ) < 2) :
    ((m + 1 / 2) * 2 ^ e : ℚ) ≤ 2 := by
  have hone : (1 : ℚ) ≤ m := by exact_mod_cast Nat.pos_of_ne_zero hm
  obtain ⟨k, rfl | rfl⟩ := e.eq_nat_or_neg
  · rw [zpow_natCast] at h ⊢
    cases k with
    | zero =>
      have hlt : (m : ℚ) < (2 : Nat) := by simpa using h
      have hle : m ≤ 1 := Nat.le_of_lt_succ (Nat.cast_lt.1 hlt)
      have hle' : (m : ℚ) ≤ 1 := by exact_mod_cast hle
      rw [pow_zero, mul_one]
      linarith
    | succ k =>
      have hk : (1 : ℚ) ≤ 2 ^ k := one_le_pow₀ (by norm_num)
      have hmk := mul_le_mul hone hk (by norm_num) (by positivity)
      rw [pow_succ] at h
      linarith
  · have hpos : (0 : ℚ) < 2 ^ k := by positivity
    rw [zpow_neg, zpow_natCast, ← div_eq_mul_inv, div_lt_iff₀ hpos] at h
    rw [zpow_neg, zpow_natCast, ← div_eq_mul_inv, div_le_iff₀ hpos]
    have hlt : m < 2 * 2 ^ k := by exact_mod_cast h
    have hle : ((m + 1 : Nat) : ℚ) ≤ (2 * 2 ^ k : Nat) := Nat.cast_le.2 hlt
    push_cast at hle
    linarith

/-- The number two may be written with any of the bits of a significand. -/
theorem exists_eq_twoTo {m : Nat} {e : Int} (hlt : m < twoTo 24) (h : (m * 2 ^ e : ℚ) = 2) :
    ∃ k < 24, m = twoTo k ∧ e = 1 - k := by
  have hm : (m : ℚ) = 2 ^ (1 - e) := by
    rw [zpow_sub₀ (by norm_num), zpow_one, eq_div_iff (by positivity)]
    exact h
  obtain ⟨k, hk | hk⟩ := (1 - e).eq_nat_or_neg
  · rw [hk, zpow_natCast, ← cast_twoTo] at hm
    have hm := Nat.cast_injective hm
    rw [hm] at hlt
    exact ⟨k, (Nat.pow_lt_pow_iff_right (by decide)).1 hlt, hm, by omega⟩
  · rw [hk, zpow_neg, zpow_natCast, ← one_div, eq_div_iff (by positivity), ← cast_twoTo] at hm
    have hm : m * twoTo k = 1 := by exact_mod_cast hm
    have hone := Nat.eq_one_of_mul_eq_one_left hm
    have hzero : k = 0 := by
      rwa [twoTo, Nat.pow_eq, Nat.pow_eq_one, or_iff_right (by decide)] at hone
    exact ⟨0, by decide, Nat.eq_one_of_mul_eq_one_right hm, by omega⟩

theorem shortest_two : ∀ k < 24, ∀ negative, shortest .single negative (twoTo k) (1 - k) =
    ⟨negative, 2, 0⟩ := by
  decide +kernel

/-- The shortest decimal of a number up to two is no greater than two. -/
theorem shortest_le_two (negative : Bool) {m : Nat} {e : Int} (hlt : m < twoTo 24)
    (h : (m * 2 ^ e : ℚ) ≤ 2) :
    ∃ n g, shortest .single negative m e = ⟨negative, n, g⟩ ∧ (n * 10 ^ g : ℚ) ≤ 2 := by
  by_cases hm : m = 0
  · exact ⟨0, 0, if_pos hm, by norm_num⟩
  · rcases h.eq_or_lt with heq | hless
    · obtain ⟨k, hk, rfl, rfl⟩ := exists_eq_twoTo hlt heq
      exact ⟨2, 0, shortest_two k hk negative, by norm_num⟩
    · obtain ⟨n, g, hshortest, -, hle⟩ := exists_shortest .single negative e hm hlt
      exact ⟨n, g, hshortest, hle.trans (add_half_le_two hm hless)⟩

end Mockup.Number.Decimal
