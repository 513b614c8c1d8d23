import Mockup.Text.Base64

/-! Base64 is read back: each group of letters holds the bits of its bytes and nothing else, and the
padding tells how many bytes the last group has. -/

namespace Mockup.Text.Base64

theorem value?_letter {n : Nat} (h : n < 64) : value? (letter n) = some n ∧ letter n ≠ '=' := by
  have table (n : Fin 64) : value? (letter n) = some n.val ∧ letter n ≠ '=' := by
    revert n
    decide
  exact table ⟨n, h⟩

/-- The last eight bits of a number are those of a byte. -/
theorem ofNat_eq_of_mod {n : Nat} {b : UInt8} (h : n % 256 = b.toNat) : UInt8.ofNat n = b := by
  rw [← UInt8.toNat_inj, UInt8.toNat_ofNat']
  exact h

theorem decode?_quad {a b c d : Char} (h : d ≠ '=') (r : List Char) :
    decode? (a :: b :: c :: d :: r) = (do
      let n := (((← value? a) * 64 + (← value? b)) * 64 + (← value? c)) * 64 + (← value? d)
      let bs ← decode? r
      return UInt8.ofNat (n / 65536) :: UInt8.ofNat (n / 256) :: UInt8.ofNat n :: bs) := by
  rw [decode?]
  · rintro - rfl
    exact absurd rfl h
  · rintro rfl
    exact absurd rfl h

theorem decode?_triple {a b c : Char} (h : c ≠ '=') :
    decode? [a, b, c, '='] = (do
      let n := ((← value? a) * 64 + (← value? b)) * 64 + (← value? c)
      if n % 4 = 0 then some [UInt8.ofNat (n / 1024), UInt8.ofNat (n / 4)] else none) := by
  rw [decode?]
  rintro rfl
  exact absurd rfl h

/-- Induction over the groups of three bytes. -/
theorem decode?_encode (bytes : Bytes) : decode? (encode bytes) = some bytes := by
  fun_induction encode bytes with
  | case1 a b c r n ih =>
    have ha := a.toNat_lt
    have hb := b.toNat_lt
    have hc := c.toNat_lt
    have hn : (((n / 262144) * 64 + n / 4096 % 64) * 64 + n / 64 % 64) * 64 + n % 64 = n := by
      omega
    have hbytes : UInt8.ofNat (n / 65536) = a ∧ UInt8.ofNat (n / 256) = b ∧ UInt8.ofNat n = c :=
      ⟨ofNat_eq_of_mod (by omega), ofNat_eq_of_mod (by omega), ofNat_eq_of_mod (by omega)⟩
    rw [decode?_quad (value?_letter (Nat.mod_lt n (by decide))).2, ih,
      (value?_letter (by omega : n / 262144 < 64)).1,
      (value?_letter (by omega : n / 4096 % 64 < 64)).1,
      (value?_letter (by omega : n / 64 % 64 < 64)).1, (value?_letter (by omega : n % 64 < 64)).1]
    simp only [Option.bind_eq_bind, Option.bind_some, Option.pure_def, hn, hbytes]
  | case2 a b n =>
    have ha := a.toNat_lt
    have hb := b.toNat_lt
    have hn : ((n / 4096) * 64 + n / 64 % 64) * 64 + n % 64 = n := by omega
    have hbytes : UInt8.ofNat (n / 1024) = a ∧ UInt8.ofNat (n / 4) = b :=
      ⟨ofNat_eq_of_mod (by omega), ofNat_eq_of_mod (by omega)⟩
    have hrest : n % 4 = 0 := by omega
    rw [decode?_triple (value?_letter (Nat.mod_lt n (by decide))).2,
      (value?_letter (by omega : n / 4096 < 64)).1,
      (value?_letter (by omega : n / 64 % 64 < 64)).1, (value?_letter (by omega : n % 64 < 64)).1]
    simp only [Option.bind_eq_bind, Option.bind_some, hn, hbytes, hrest, if_true]
  | case3 a n =>
    have ha := a.toNat_lt
    have hn : (n / 64) * 64 + n % 64 = n := by omega
    have hbyte : UInt8.ofNat (n / 16) = a := ofNat_eq_of_mod (by omega)
    have hrest : n % 16 = 0 := by omega
    rw [decode?, (value?_letter (by omega : n / 64 < 64)).1,
      (value?_letter (by omega : n % 64 < 64)).1]
    simp only [Option.bind_eq_bind, Option.bind_some, hn, hbyte, hrest, if_true]
  | case4 => rfl

end Mockup.Text.Base64
