import Mathlib.Data.Bool.AllAny
import Mockup.Network.Percent
import Mockup.Proofs.Text.Utf8

/-! Percent-encoded text holds no character that had to be encoded, so it is not encoded again; and
text without percent signs is decoded as it is. -/

namespace Mockup.Network.Percent

open Text

/-- The characters that percent-encoding writes. -/
def signs : List Char := "%0123456789ABCDEF".toList

theorem encodeByte_table : ∀ n : Fin 256,
    (encodeByte (UInt8.ofNat n)).all (· ∈ signs) = true ∧
      ((encodeByte (UInt8.ofNat n)).map Char.toLower = "%2e".toList → n.val = 46) := by
  decide +kernel

theorem mem_signs_of_mem_encodeByte {b : UInt8} {c : Char} (h : c ∈ encodeByte b) : c ∈ signs := by
  have hb := (encodeByte_table ⟨b.toNat, b.toNat_lt⟩).1
  rw [UInt8.ofNat_toNat] at hb
  exact List.all_iff_forall_prop.1 hb c h

/-- Only the byte of a dot is written like one. -/
theorem toNat_of_encodeByte {b : UInt8} (h : (encodeByte b).map Char.toLower = "%2e".toList) :
    b.toNat = 46 := by
  have hb := (encodeByte_table ⟨b.toNat, b.toNat_lt⟩).2
  rw [UInt8.ofNat_toNat] at hb
  exact hb h

variable {set : Char → Bool} {s : List Char} {c : Char}

theorem mem_of_mem_encode (h : c ∈ encode set s) : c ∈ s ∧ set c = false ∨ c ∈ signs := by
  obtain ⟨d, hd, hc⟩ := List.mem_flatMap.1 h
  split_ifs at hc with hset
  · obtain ⟨b, -, hb⟩ := List.mem_flatMap.1 hc
    exact .inr (mem_signs_of_mem_encodeByte hb)
  · rw [List.mem_singleton.1 hc]
    exact .inl ⟨hd, by simpa using hset⟩

theorem encode_eq_self (h : ∀ c ∈ s, set c = false) : encode set s = s := by
  induction s with
  | nil => rfl
  | cons c s ih =>
    obtain ⟨hc, hs⟩ := List.forall_mem_cons.1 h
    rw [encode, List.flatMap_cons, if_neg (by simp [hc])]
    exact congrArg (c :: ·) (ih hs)

/-- The signs of the encoding are outside every set. -/
theorem set_of_mem_encode (hsigns : signs.all (!set ·) = true) (h : c ∈ encode set s) :
    set c = false :=
  (mem_of_mem_encode h).elim And.right fun hc => by simpa using List.all_eq_true.1 hsigns c hc

theorem infix_flatMap {α β : Type} {f : α → List β} {a : α} {l : List α} (h : a ∈ l) :
    f a <:+: l.flatMap f := by
  rw [List.flatMap_def]
  exact List.infix_of_mem_flatten (List.mem_map_of_mem h)

theorem infix_encode {b : UInt8} (hc : c ∈ s) (hset : set c = true)
    (hb : b ∈ String.utf8EncodeChar c) : encodeByte b <:+: encode set s := by
  have hchar : (if set c then (String.utf8EncodeChar c).flatMap encodeByte else [c]) <:+:
      encode set s :=
    infix_flatMap
      (f := fun c => if set c then (String.utf8EncodeChar c).flatMap encodeByte else [c]) hc
  rw [if_pos hset] at hchar
  exact (infix_flatMap hb).trans hchar

theorem decode_of_notMem (h : '%' ∉ s) : decode s = Utf8.encode (String.ofList s) := by
  rw [Utf8.encode_eq, String.toList_ofList]
  fun_induction decode s with
  | case1 => exact absurd List.mem_cons_self h
  | case2 => exact absurd List.mem_cons_self h
  | case3 c s _ ih => rw [ih fun hc => h (List.mem_cons_of_mem c hc), List.flatMap_cons]
  | case4 => rfl

end Mockup.Network.Percent
