import Mockup.Proofs.Network.Address
import Mockup.Proofs.Network.Domain
import Mockup.Proofs.Network.Percent
import Mockup.Proofs.Number.Digit

/-! The host of a scheme that always has one is read back: an address of the fourth version is a
name of its own, one of the sixth version stands between brackets, and any other name is in the form
in which it is looked up. -/

namespace Mockup.Network

open Text

/-! ### Addresses as names -/

theorem toNat_of_isDigitIn {c : Char} {radix : Nat} (h : Number.isDigitIn radix c = true) :
    48 ≤ c.toNat ∧ c.toNat ≤ 57 ∨ 97 ≤ c.toNat ∧ c.toNat ≤ 102 ∨
      65 ≤ c.toNat ∧ c.toNat ≤ 70 := by
  unfold Number.isDigitIn Number.digitValue? at h
  split_ifs at h with hdigit hsmall hlarge
  · simp only [Bool.and_eq_true, decide_eq_true_eq] at hdigit
    exact .inl ⟨UInt32.le_iff_toNat_le.1 hdigit.1, UInt32.le_iff_toNat_le.1 hdigit.2⟩
  · simp only [Bool.and_eq_true, decide_eq_true_eq] at hsmall
    exact .inr (.inl ⟨UInt32.le_iff_toNat_le.1 hsmall.1, UInt32.le_iff_toNat_le.1 hsmall.2⟩)
  · simp only [Bool.and_eq_true, decide_eq_true_eq] at hlarge
    exact .inr (.inr ⟨UInt32.le_iff_toNat_le.1 hlarge.1, UInt32.le_iff_toNat_le.1 hlarge.2⟩)
  · cases h

theorem Domain.isForbidden_eq_false_iff {c : Char} : isForbidden c = false ↔
    32 < c.toNat ∧ c.toNat ≠ 127 ∧
      ∀ n ∈ [37, 35, 47, 58, 60, 62, 63, 64, 91, 92, 93, 94, 124], c.toNat ≠ n := by
  simp [isForbidden, ← Char.toNat_inj, and_assoc]

theorem IPv4.canonical_text (a : IPv4) : Domain.Canonical a.text := by
  have hrange {c : Char} (hc : c ∈ a.text) : c = '.' ∨ 48 ≤ c.toNat ∧ c.toNat ≤ 57 :=
    (IPv4.mem_text hc).imp_right Number.toNat_of_isDigit
  refine Domain.canonical_of_plain ?_ ?_ ?_ ?_
  · refine List.all_eq_true.2 fun c hc => ?_
    rcases hrange hc with rfl | hc
    · decide
    · exact decide_eq_true (by omega)
  · intro c hc
    rcases hrange hc with rfl | hc
    · decide
    · rw [← Bool.not_eq_true, isUpper_iff]
      omega
  · intro c hc
    rcases hrange hc with rfl | hc
    · decide
    · refine Domain.isForbidden_eq_false_iff.2 ⟨by omega, by omega, fun n hn => ?_⟩
      simp only [List.mem_cons, List.not_mem_nil, or_false] at hn
      omega
  · rintro l hl ⟨r, rfl⟩
    have hx : 'x' ∈ Domain.sign ++ r := List.mem_append_left r (by decide)
    rcases hrange (mem_of_mem_splitOn hl hx).1 with h | h <;> revert h <;> decide

theorem IPv4.text_ne_nil (a : IPv4) : a.text ≠ [] := by
  intro hnil
  have h := a.endsInNumber_text
  rw [hnil] at h
  revert h
  decide

/-! ### Reading -/

/-- A host as it is kept: names are in the form in which they are looked up. -/
inductive Host.Kept : Host → Prop
  | domain {name : List Char} (hname : Domain.Canonical name) (hne : name ≠ [])
    (hnumber : endsInNumber name = false) : Kept (.domain name)
  | v4 (a : IPv4) : Kept (.v4 a)
  | v6 (a : IPv6) : Kept (.v6 a)

namespace Host

theorem ofName_of_canonical {name : List Char} (h : Domain.Canonical name) (hne : name ≠ []) :
    ofName name =
      if endsInNumber name then
        match numericAddress? name with
        | some a => .ok (.v4 a)
        | none => .error .badIPv4
      else .ok (.domain name) := by
  have hpercent : '%' ∉ name := fun hc => absurd (h.allowed _ hc) (by decide)
  unfold ofName
  split
  · exact absurd (h.allowed _ List.mem_cons_self) (by decide)
  · rw [Percent.decode_of_notMem hpercent, Utf8.decode?_encode, Option.bind_some,
      String.toList_ofList, h.reads]
    split
    · contradiction
    · rename_i heq
      exact absurd (Option.some.inj heq) hne
    · rename_i heq
      cases heq
      rfl

theorem kept_of_bracketed {s : List Char} {host : Host} (h : ofBracketed s = .ok host) :
    Kept host := by
  unfold ofBracketed at h
  split at h
  · cases h
    exact .v6 _
  · cases h

theorem kept_of_ofName {s : List Char} {host : Host} (h : ofName s = .ok host) : Kept host := by
  unfold ofName at h
  split at h
  · exact kept_of_bracketed h
  · split at h
    · cases h
    · cases h
    · rename_i name hname hread
      obtain ⟨d, -, hread⟩ := Option.bind_eq_some_iff.1 hread
      split_ifs at h with hnumber
      · split at h
        · cases h
          exact .v4 _
        · cases h
      · cases h
        exact .domain (Domain.canonical_of_toAscii? hread) hname (by simpa using hnumber)

theorem Kept.ofName_text {host : Host} (h : Kept host) : ofName host.text = .ok host := by
  cases h with
  | domain hname hne hnumber =>
    rw [text, ofName_of_canonical hname hne, if_neg (by simp [hnumber])]
  | v4 a =>
    rw [text, ofName_of_canonical a.canonical_text a.text_ne_nil, if_pos a.endsInNumber_text,
      a.numericAddress?_text]
  | v6 a =>
    change ofBracketed (a.text ++ [']']) = _
    unfold ofBracketed
    rw [List.getLast?_concat, List.dropLast_concat, a.ofText?_text]
    rfl

theorem Kept.text_ne_nil {host : Host} (h : Kept host) : host.text ≠ [] := by
  cases h with
  | domain _ hne _ => exact hne
  | v4 a => exact a.text_ne_nil
  | v6 a => exact List.cons_ne_nil _ _

theorem Kept.ne_domain_nil {host : Host} (h : Kept host) : host ≠ .domain [] := by
  rintro rfl
  exact h.text_ne_nil rfl

end Host

/-! ### Characters -/

/-- What may stand before the query of a URL without being a sign: visible characters of ASCII. -/
def isPlain (c : Char) : Bool :=
  0x20 < c.toNat && c.toNat < 0x7F && !(['#', '/', '?', '\\'].contains c)

theorem isPlain_iff {c : Char} : isPlain c = true ↔ 32 < c.toNat ∧ c.toNat < 127 ∧
    ∀ n ∈ [35, 47, 63, 92], c.toNat ≠ n := by
  simp [isPlain, ← Char.toNat_inj, and_assoc]

theorem Domain.Canonical.isPlain {name : List Char} (h : Domain.Canonical name) {c : Char}
    (hc : c ∈ name) : isPlain c = true ∧ c ∉ ['@', ':', '[', ']'] := by
  have hascii : c.toNat < 128 := of_decide_eq_true (List.all_eq_true.1 h.isAscii c hc)
  obtain ⟨hlow, hhigh, hsigns⟩ := Domain.isForbidden_eq_false_iff.1 (h.allowed c hc)
  refine ⟨isPlain_iff.2 ⟨hlow, by omega, fun n hn => hsigns n ?_⟩, fun hm => ?_⟩
  · revert n
    decide
  · have hall : ∀ c ∈ ['@', ':', '[', ']'], isForbidden c = true :=
      List.all_eq_true.1 (by decide)
    have hallowed := h.allowed c hc
    rw [hall c hm] at hallowed
    cases hallowed

theorem IPv6.isPlain {a : IPv6} {c : Char} (hc : c ∈ a.text) :
    isPlain c = true ∧ c ∉ ['@', '[', ']'] := by
  rcases IPv6.mem_text hc with rfl | hdigit
  · decide
  · have hrange := toNat_of_isDigitIn hdigit
    refine ⟨isPlain_iff.2 ⟨by omega, by omega, fun n hn => ?_⟩, fun hm => ?_⟩
    · simp only [List.mem_cons, List.not_mem_nil, or_false] at hn
      omega
    · simp only [List.mem_cons, List.not_mem_nil, or_false] at hm
      rcases hm with rfl | rfl | rfl <;> revert hrange <;> decide

theorem Host.Kept.isPlain {host : Host} (h : Kept host) :
    ∀ c ∈ host.text, isPlain c = true ∧ c ≠ '@' := by
  have hcanonical {name : List Char} (hname : Domain.Canonical name) :
      ∀ c ∈ name, Network.isPlain c = true ∧ c ≠ '@' := fun c hc => by
    obtain ⟨hplain, hsign⟩ := hname.isPlain hc
    exact ⟨hplain, fun hat => hsign (hat ▸ List.mem_cons_self)⟩
  cases h with
  | domain hname _ _ => exact hcanonical hname
  | v4 a => exact hcanonical a.canonical_text
  | v6 a =>
    intro c hc
    rcases List.mem_cons.1 hc with rfl | hc
    · decide
    · rcases List.mem_append.1 hc with hc | hc
      · obtain ⟨hplain, hsign⟩ := IPv6.isPlain hc
        exact ⟨hplain, fun hat => hsign (hat ▸ List.mem_cons_self)⟩
      · rw [List.mem_singleton.1 hc]
        decide

end Mockup.Network
