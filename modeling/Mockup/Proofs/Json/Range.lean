import Mockup.Proofs.Json.Text
import Mockup.Proofs.Number.Rounding
import Mockup.Proofs.Number.Shortest

/-! Numerals that stand for a number. Only a numeral of great magnitude is out of range, and the
shortest decimal of a number of single precision is far from that. -/

namespace Mockup

open Number

/-! ### Digits -/

theorem length_digits_le {n k : Nat} (hk : 0 < k) (h : n < tenTo k) : (digits n).length ≤ k :=
  (Nat.length_toDigits_le_iff (by decide) hk).2 h

/-- The number that digits spell has no more digits. -/
theorem foldl_digits_lt (ds : List (Fin 10)) (n : Nat) :
    ds.foldl (fun n d => 10 * n + d.val) n < (n + 1) * tenTo ds.length := by
  induction ds generalizing n with
  | nil =>
    rw [List.foldl_nil, List.length_nil, tenTo, Nat.pow_eq, Nat.pow_zero]
    omega
  | cons d ds ih =>
    calc (d :: ds).foldl (fun n d => 10 * n + d.val) n
      _ < (10 * n + d.val + 1) * tenTo ds.length := ih _
      _ ≤ ((n + 1) * 10) * tenTo ds.length := Nat.mul_le_mul_right _ (by omega)
      _ = (n + 1) * tenTo (d :: ds).length := by
        rw [List.length_cons, tenTo, tenTo, Nat.pow_eq, Nat.pow_eq, Nat.pow_succ', Nat.mul_assoc]

theorem log2_tenTo_le (k : Nat) : (tenTo k).log2 ≤ 4 * k := by
  have hle : tenTo k ≤ 2 ^ (4 * k) := by
    rw [tenTo, Nat.pow_eq, Nat.pow_mul]
    exact Nat.pow_le_pow_left (by decide) k
  have hlt := (Nat.log2_lt (Nat.ne_of_gt (tenTo_pos k))).2
    (Nat.lt_of_le_of_lt hle (Nat.pow_lt_pow_right (by decide) (Nat.lt_succ_self (4 * k))))
  omega

/-! ### The shortest decimal -/

namespace Number.Decimal

theorem pointPlace_trimZeros (fuel n : Nat) (e : Int) :
    ((digits (trimZeros fuel n e).1).length : Int) + (trimZeros fuel n e).2 =
      (digits n).length + e := by
  induction fuel generalizing n e with
  | zero => rfl
  | succ fuel ih =>
    rw [trimZeros]
    split
    · rename_i h
      have hlength : (digits n).length = (digits (n / 10)).length + 1 := by
        rw [digits, digits, Nat.toDigits_of_base_le (b := 10) (n := n) (by decide) (by omega),
          List.length_append, List.length_singleton]
      have := ih (n / 10) (e + 1)
      omega
    · rfl

theorem neighbour?_le {closed : Bool} {v lo hi d c : Nat} {g : Int}
    (h : neighbour? closed v lo hi d g = some c) :
    c ≤ (scaleDownTen v d g).1 / (scaleDownTen v d g).2 + 1 := by
  change c ≤ below v d g + 1
  rw [neighbour?_eq] at h
  split at h
  · split at h <;> cases h <;> omega
  · cases h
    omega
  · cases h
    omega
  · cases h

theorem decimalLog_le {n d k : Nat} (hk : 0 < k) (h : n < tenTo k) : decimalLog n d ≤ k := by
  unfold decimalLog
  dsimp only
  split
  · have := length_digits_le hk (Nat.lt_of_le_of_lt (Nat.div_le_self n d) h)
    omega
  · split <;> omega

/-- A neighbour on a grid reaches as far as the number does, or as the grid. -/
theorem place_neighbour?_le {closed : Bool} {v lo hi d c k : Nat} {g : Int}
    (h : neighbour? closed v lo hi d g = some c) (hk : 0 < k) (hv : v + 2 ≤ tenTo k) :
    ((digits c).length : Int) + g ≤ k + max g 0 := by
  have hc := neighbour?_le h
  cases g with
  | ofNat j =>
    dsimp only [scaleDownTen] at hc
    have hquotient := Nat.div_le_self v (d * tenTo j)
    have := length_digits_le (n := c) hk (by omega)
    rw [Int.ofNat_eq_natCast]
    omega
  | negSucc j =>
    dsimp only [scaleDownTen] at hc
    have hquotient := Nat.div_le_self (v * tenTo (j + 1)) d
    have hscaled : (v + 2) * tenTo (j + 1) ≤ tenTo (k + (j + 1)) := by
      rw [tenTo.eq_def (k + (j + 1)), Nat.pow_eq, Nat.pow_add]
      exact Nat.mul_le_mul_right _ hv
    have hpos := tenTo_pos (j + 1)
    rw [Nat.add_mul] at hscaled
    have := length_digits_le (n := c) (k := k + (j + 1)) (by omega) (by omega)
    omega

theorem shortest_single_scale {m : Nat} {e : Int} (hm : m < twoTo 24) (he : e ≤ 104) :
    4 * m * (scaleDown 1 1 (2 - e)).1 + 2 ≤ tenTo 39 := by
  have hscale : (scaleDown 1 1 (2 - e)).1 ≤ twoTo 102 := by
    cases h : 2 - e with
    | ofNat k => exact twoTo_pos 102
    | negSucc k =>
      dsimp only [scaleDown]
      rw [Nat.one_mul]
      exact Nat.pow_le_pow_right (by decide) (by omega)
  calc 4 * m * (scaleDown 1 1 (2 - e)).1 + 2
    _ ≤ 4 * twoTo 24 * twoTo 102 + 2 :=
      Nat.add_le_add_right (Nat.mul_le_mul (by omega) hscale) 2
    _ ≤ tenTo 39 := by decide

theorem pointPlace_shortest_single {negative : Bool} {m : Nat} {e : Int}
    (h : Format.single.IsNumber (.finite negative m e)) :
    (shortest .single negative m e).pointPlace ≤ 78 := by
  obtain ⟨hm, -, he⟩ := h
  have hv := shortest_single_scale hm he
  unfold shortest
  dsimp only
  split
  · have hone : (digits 0).length = 1 := rfl
    rw [pointPlace, hone]
    dsimp only
    omega
  · split
    · rename_i c g hgrid
      obtain ⟨hle, hneighbour⟩ := exists_neighbour_of_firstGrid hgrid
      have hlog := Int.le_trans hle (decimalLog_le (k := 39) (by decide) (by omega))
      have hplace := place_neighbour?_le hneighbour (k := 39) (by decide) hv
      rw [pointPlace, pointPlace_trimZeros]
      omega
    · have hsmall : m < tenTo 8 := Nat.lt_trans hm (by decide)
      have := length_digits_le (by decide) hsmall
      rw [pointPlace]
      dsimp only
      omega

end Number.Decimal

/-! ### Numerals -/

namespace Numeral

theorem fill_fst_lt {m : Nat} (ds : List (Fin 10)) (h : m < twoTo 64) :
    (fill m ds).1 < twoTo 64 := by
  induction ds generalizing m with
  | nil => exact h
  | cons d ds ih =>
    rw [fill]
    split
    · rename_i hfits
      exact ih hfits
    · exact h

theorem length_fill_le (m : Nat) (ds : List (Fin 10)) : (fill m ds).2.length ≤ ds.length := by
  induction ds generalizing m with
  | nil => exact Nat.le_refl _
  | cons d ds ih =>
    rw [fill]
    split
    · exact Nat.le_succ_of_le (ih _)
    · exact Nat.le_refl _

theorem significand_fst_lt (n : Numeral) : n.significand.1 < twoTo 64 :=
  fill_fst_lt _ (fill_fst_lt _ (twoTo_pos 64))

theorem significand_snd_le (n : Numeral) :
    n.significand.2 ≤ (digits n.whole).length + n.exponent.getD 0 := by
  have hdropped := length_fill_le 0 n.wholeDigits
  have hdigits : n.wholeDigits.length = (digits n.whole).length := List.length_map ..
  unfold significand
  dsimp only
  omega

theorem exists_ofInt_double {m : Nat} (hm : m ≠ 0) (h : m < twoTo 64) :
    ∃ s k e, Format.double.ofInt m = .finite s k e ∧ (k.log2 : Int) + e ≤ 64 := by
  have hlog : m.log2 < 64 := (Nat.log2_lt hm).2 h
  have hone : magnitude m 1 = m.log2 := Int.sub_zero _
  obtain ⟨k, e, hround, hle⟩ := exists_finite_of_round (f := .double)
    (decide ((m : Int) < 0)) hm Nat.one_ne_zero (by decide) (by decide)
    (by rw [hone, Format.double]; dsimp only; omega)
  refine ⟨_, k, e, hround, ?_⟩
  rw [hone, Format.double] at hle
  dsimp only at hle
  omega

theorem exists_power_double {k : Nat} (hk : k ≤ 200) :
    ∃ s m e, (⟨false, 1, k⟩ : Decimal).toFloating .double = .finite s m e ∧
      (m.log2 : Int) + e ≤ 801 := by
  have hscale : scaleDownTen 1 1 (-(k : Int)) = (tenTo k, 1) := by
    cases k with
    | zero => rfl
    | succ k => exact congrArg (·, 1) (Nat.one_mul _)
  have hone : magnitude (tenTo k) 1 = (tenTo k).log2 := Int.sub_zero _
  have hlog := log2_tenTo_le k
  obtain ⟨m, e, hround, hle⟩ := exists_finite_of_round (f := .double) false
    (Nat.ne_of_gt (tenTo_pos k)) Nat.one_ne_zero (by decide) (by decide)
    (by rw [hone, Format.double]; dsimp only; omega)
  refine ⟨false, m, e, ?_, ?_⟩
  · have hdigits : (digits 1).length = 1 := rfl
    unfold Decimal.toFloating
    dsimp only
    rw [hdigits, hscale, if_neg (by simp; omega), if_neg (by omega)]
    exact hround
  · rw [hone, Format.double] at hle
    dsimp only at hle
    omega

/-- A numeral whose digits and exponent reach no further than this is that of a double. -/
theorem inRange_of_le {n : Numeral} (h : (digits n.whole).length + n.exponent.getD 0 ≤ 200) :
    Json.InRange n := by
  have hm := significand_fst_lt n
  have he := Int.le_trans (significand_snd_le n) h
  refine .inr ?_
  unfold toDouble?
  generalize n.significand = p at hm he
  obtain ⟨m, e⟩ := p
  dsimp only at hm he ⊢
  split
  · rfl
  · rename_i hzero
    rw [if_neg (by omega)]
    split
    · obtain ⟨s, a, i, hint, ha⟩ := exists_ofInt_double hzero hm
      obtain ⟨t, b, j, hpower, hb⟩ := exists_power_double (k := e.toNat) (by omega)
      have hfinite : (Floating.multiply .double (Format.double.ofInt m)
          ((⟨false, 1, e.toNat⟩ : Decimal).toFloating .double)).isFinite = true := by
        rw [hint, hpower]
        exact isFinite_multiply (by decide) (by decide)
          (by rw [Format.double]; dsimp only; omega)
      rw [if_pos hfinite]
      rfl
    · rfl

/-- The first `k` digits, with zeros behind them where there are fewer. -/
theorem length_digits_take_le (ds : List (Fin 10)) {k : Nat} (hk : 0 < k) :
    (digits ((ds.take k).foldl (fun n d => 10 * n + d.val) 0 * tenTo (k - ds.length))).length
      ≤ k := by
  refine length_digits_le hk ?_
  have hlength : (ds.take k).length + (k - ds.length) = k := by
    rw [List.length_take]
    omega
  calc (ds.take k).foldl (fun n d => 10 * n + d.val) 0 * tenTo (k - ds.length)
    _ < (0 + 1) * tenTo (ds.take k).length * tenTo (k - ds.length) :=
      Nat.mul_lt_mul_of_pos_right (foldl_digits_lt _ 0) (tenTo_pos _)
    _ = tenTo ((ds.take k).length + (k - ds.length)) := by
      rw [Nat.zero_add, Nat.one_mul]
      exact (Nat.pow_add ..).symm
    _ = tenTo k := by rw [hlength]

theorem inRange_ofDecimal {x : Decimal} (h : x.pointPlace ≤ 200) : Json.InRange (ofDecimal x) := by
  have hzero : (digits 0).length = 1 := rfl
  refine inRange_of_le ?_
  unfold ofDecimal
  dsimp only
  split
  · rw [hzero, Option.getD_none]
    decide
  · split
    · rename_i hplace
      simp only [Bool.and_eq_true, decide_eq_true_eq] at hplace
      have := length_digits_take_le ((digits x.significand).map digit)
        (k := x.pointPlace.toNat) (by omega)
      rw [Option.getD_none]
      dsimp only
      omega
    · split
      · rw [hzero, Option.getD_none]
        decide
      · have hpos : 0 < ((digits x.significand).map digit).length := by
          rw [List.length_map]
          exact Nat.length_toDigits_pos
        have hfirst := length_digits_take_le ((digits x.significand).map digit) Nat.one_pos
        rw [Nat.sub_eq_zero_of_le hpos] at hfirst
        rw [Option.getD_some]
        have hone : tenTo 0 = 1 := rfl
        rw [hone, Nat.mul_one] at hfirst
        dsimp only
        omega

end Numeral

/-- The numeral of a number of single precision can be read back. -/
theorem Json.inRange_shortest_single {negative : Bool} {m : Nat} {e : Int}
    (h : Format.single.IsNumber (.finite negative m e)) :
    InRange (.ofDecimal (.shortest .single negative m e)) :=
  Numeral.inRange_ofDecimal (Int.le_trans (Decimal.pointPlace_shortest_single h) (by decide))

end Mockup
