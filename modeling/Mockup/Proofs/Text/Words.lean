import Mathlib.Data.List.Forall2
import Mathlib.Tactic.SplitIfs
import Mockup.Text.Ranges

/-! Texts cut at a separator, and their parts read one by one. What holds of all characters of a
text holds of those of its parts. -/

namespace Mockup.Text

theorem mem_of_mem_splitOn {α : Type} [BEq α] [LawfulBEq α] {sep c : α} {s part : List α}
    (h : part ∈ s.splitOn sep) (hc : c ∈ part) : c ∈ s ∧ c ≠ sep := by
  induction s generalizing part with
  | nil =>
    rw [List.splitOn_nil, List.mem_singleton] at h
    rw [h] at hc
    cases hc
  | cons d s ih =>
    rw [List.splitOn_cons_eq_if_modifyHead] at h
    split_ifs at h with hd
    · rcases List.mem_cons.1 h with rfl | h
      · cases hc
      · exact (ih h hc).imp_left (List.mem_cons_of_mem d)
    · obtain ⟨first, rest, hs⟩ := List.exists_cons_of_ne_nil (List.splitOn_ne_nil sep s)
      rw [hs, List.modifyHead_cons] at h
      rcases List.mem_cons.1 h with rfl | h
      · rcases List.mem_cons.1 hc with rfl | hc
        · exact ⟨List.mem_cons_self, by simpa using hd⟩
        · exact (ih (hs ▸ List.mem_cons_self) hc).imp_left (List.mem_cons_of_mem d)
      · exact (ih (hs ▸ List.mem_cons_of_mem first h) hc).imp_left (List.mem_cons_of_mem d)

theorem mem_intercalate {α : Type} {sep c : α} {parts : List (List α)}
    (h : c ∈ [sep].intercalate parts) : c = sep ∨ ∃ p ∈ parts, c ∈ p := by
  induction parts with
  | nil => cases h
  | cons p parts ih =>
    cases parts with
    | nil =>
      rw [List.intercalate_singleton] at h
      exact .inr ⟨p, List.mem_cons_self, h⟩
    | cons q parts =>
      rw [List.intercalate_cons_cons, List.mem_append, List.mem_append, List.mem_singleton] at h
      rcases h with (h | h) | h
      · exact .inr ⟨p, List.mem_cons_self, h⟩
      · exact .inl h
      · exact (ih h).imp_right fun ⟨w, hw, hc⟩ => ⟨w, List.mem_cons_of_mem p hw, hc⟩

theorem mem_of_mem_words {c : Char} {s w : List Char} (h : w ∈ words s) (hc : c ∈ w) : c ∈ s := by
  obtain ⟨hmem, hne⟩ := mem_of_mem_splitOn (List.mem_of_mem_filter h) hc
  obtain ⟨d, hd, hcd⟩ := List.mem_map.1 hmem
  split_ifs at hcd
  · exact absurd hcd.symm hne
  · exact hcd ▸ hd

theorem mapM_eq_some_iff {α β : Type} {f : α → Option β} {l : List α} {l' : List β} :
    l.mapM f = some l' ↔ List.Forall₂ (fun a b => f a = some b) l l' := by
  induction l generalizing l' with
  | nil => simp [eq_comm]
  | cons a l ih =>
    rw [List.mapM_cons, Option.bind_eq_bind, Option.bind_eq_some_iff]
    constructor
    · rintro ⟨b, hb, h⟩
      obtain ⟨bs, hbs, h⟩ := Option.bind_eq_some_iff.1 h
      cases h
      exact .cons hb (ih.1 hbs)
    · rintro (_ | ⟨hb, hbs⟩)
      exact ⟨_, hb, by rw [ih.2 hbs]; rfl⟩

theorem exists_of_mem_left {α β : Type} {R : α → β → Prop} {as : List α} {bs : List β}
    (h : List.Forall₂ R as bs) : ∀ a ∈ as, ∃ b ∈ bs, R a b := by
  induction h with
  | nil => exact List.forall_mem_nil _
  | @cons a b as bs hab _ ih =>
    refine List.forall_mem_cons.2 ⟨⟨b, List.mem_cons_self, hab⟩, fun x hx => ?_⟩
    obtain ⟨y, hy, hxy⟩ := ih x hx
    exact ⟨y, List.mem_cons_of_mem b hy, hxy⟩

/-- A run of characters of one kind ends where another kind begins. -/
theorem takeWhile_append_of_head {p : Char → Bool} {s t : List Char} (hs : ∀ c ∈ s, p c = true)
    (ht : ∀ c ∈ t.head?, p c = false) : (s ++ t).takeWhile p = s := by
  rw [List.takeWhile_append_of_pos hs]
  cases t with
  | nil => simp
  | cons c t => simp [ht c rfl]

theorem dropWhile_append_of_head {p : Char → Bool} {s t : List Char} (hs : ∀ c ∈ s, p c = true)
    (ht : ∀ c ∈ t.head?, p c = false) : (s ++ t).dropWhile p = t := by
  rw [List.dropWhile_append_of_pos hs]
  cases t with
  | nil => rfl
  | cons c t => simp [ht c rfl]

theorem toNat_ofNat_of_valid {n : Nat} (h : n < 0xD800 ∨ 0xDFFF < n ∧ n < 0x110000) :
    (Char.ofNat n).toNat = n := by
  rw [Char.ofNat, dif_pos h]
  rfl

/-- No character is a large letter of ASCII. -/
def IsSmall (s : List Char) : Prop := ∀ c ∈ s, c.isUpper = false

theorem isUpper_iff {c : Char} : c.isUpper = true ↔ 65 ≤ c.toNat ∧ c.toNat ≤ 90 :=
  decide_eq_true_iff.trans (and_congr UInt32.le_iff_toNat_le UInt32.le_iff_toNat_le)

theorem isUpper_of_lt {c : Char} (h : 90 < c.toNat) : c.isUpper = false := by
  rw [← Bool.not_eq_true, isUpper_iff]
  omega

theorem IsSmall.append {s t : List Char} (hs : IsSmall s) (ht : IsSmall t) : IsSmall (s ++ t) :=
  List.forall_mem_append.2 ⟨hs, ht⟩

theorem isSmall_singleton {c : Char} (h : c.isUpper = false) : IsSmall [c] :=
  List.forall_mem_singleton.2 h

theorem toLower_of_isUpper_eq_false {c : Char} (h : c.isUpper = false) : c.toLower = c :=
  dif_neg (of_decide_eq_false h)

theorem isUpper_toLower (c : Char) : c.toLower.isUpper = false := by
  cases h : c.isUpper with
  | false => rwa [toLower_of_isUpper_eq_false h]
  | true =>
    have hc := isUpper_iff.1 h
    have hval : c.toLower.val = c.val + 32 := congrArg Char.val (dif_pos (of_decide_eq_true h))
    refine isUpper_of_lt ?_
    change 90 < c.toLower.val.toNat
    rw [hval, UInt32.toNat_add]
    change 90 < (c.toNat + 32) % 2 ^ 32
    omega

theorem IsSmall.map_toLower {s : List Char} (h : IsSmall s) : s.map Char.toLower = s :=
  (List.map_congr_left fun c hc => toLower_of_isUpper_eq_false (h c hc)).trans (List.map_id s)

theorem isSmall_map_toLower (s : List Char) : IsSmall (s.map Char.toLower) := by
  intro c hc
  obtain ⟨d, -, rfl⟩ := List.mem_map.1 hc
  exact isUpper_toLower d

end Mockup.Text
