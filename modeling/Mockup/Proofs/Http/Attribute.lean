import Mockup.Http.Multipart
import Mockup.Proofs.Text.Leftmost

/-! Which mention of an attribute counts. A mention that stands directly behind other text is passed
over; the first that does not has the value, or the attribute has none. -/

namespace Mockup.Http.Multipart

open Text

/-- A place where an attribute may be told: the start, behind a blank or a semicolon, and directly
behind a mention that was passed over. -/
def IsPlace (name before : Bytes) : Prop :=
  (∀ b ∈ before.getLast?, isBlankByte b = true ∨ b = 59) ∨ name <:+ before

/-- The attribute is mentioned in a place where it may be told. -/
structure Mentions (name s before after : Bytes) : Prop where
  eq_append : s = before ++ (name ++ after)
  isPlace : IsPlace name before

/-- The value behind a mention. -/
def valueBehind? (after : Bytes) : Option Bytes :=
  match after.dropWhile isBlankByte with
  | 61 :: s => attributeValue? s
  | _ => none

variable {c : UInt8} {n s u w before after : Bytes}

/-! ### Mentions are apart -/

/-- A name that does not have its first byte twice has no mention that starts within another. -/
theorem exists_between (hc : c ∉ n) (h : u ++ (c :: n ++ w) = before ++ (c :: n ++ after))
    (hlt : u.length < before.length) :
    ∃ m, before = u ++ (c :: n ++ m) ∧ w = m ++ (c :: n ++ after) := by
  rcases List.append_eq_append_iff.1 h with ⟨t, rfl, ht⟩ | ⟨t, rfl, -⟩
  · cases t with
    | nil => simp at hlt
    | cons d t =>
      rw [List.cons_append, List.cons_append, List.cons.injEq] at ht
      obtain ⟨rfl, ht⟩ := ht
      rcases List.append_eq_append_iff.1 ht with ⟨m, rfl, hm⟩ | ⟨x, rfl, hx⟩
      · exact ⟨m, rfl, hm⟩
      · cases x with
        | nil => exact ⟨[], by simp, by simpa using hx.symm⟩
        | cons e x =>
          rw [List.cons_append, List.cons_append, List.cons.injEq] at hx
          rw [← hx.1] at hc
          exact absurd (List.mem_append_right _ List.mem_cons_self) hc
  · rw [List.length_append] at hlt
    omega

theorem isPlace_append_iff (hc : c ∉ n) (u m : Bytes) :
    IsPlace (c :: n) (u ++ (c :: n ++ m)) ↔ IsPlace (c :: n) m := by
  by_cases hm : m = []
  · subst hm
    rw [List.append_nil]
    exact ⟨fun _ => .inl nofun, fun _ => .inr (List.suffix_append _ _)⟩
  · have hlast : (u ++ (c :: n ++ m)).getLast? = m.getLast? := by
      rw [← List.append_assoc, List.getLast?_append_of_ne_nil _ hm]
    have hsuffix : c :: n <:+ u ++ (c :: n ++ m) ↔ c :: n <:+ m := by
      refine ⟨fun ⟨t, ht⟩ => ?_, fun h => (h.trans (List.suffix_append _ _)).trans
        (List.suffix_append _ _)⟩
      have hlt : u.length < t.length := by
        have hlength := congrArg List.length ht
        have hpos := List.length_pos_of_ne_nil hm
        simp only [List.length_append] at hlength
        omega
      obtain ⟨m', -, rfl⟩ := exists_between hc
        (show u ++ (c :: n ++ m) = t ++ (c :: n ++ []) by rw [List.append_nil, ht]) hlt
      rw [List.append_nil]
      exact List.suffix_append _ _
    rw [IsPlace, IsPlace, hlast, hsuffix]

theorem isFirst_here (hc : c ∉ n) (hu : ¬ c :: n <:+: u) (hplace : IsPlace (c :: n) u) :
    IsFirst (Mentions (c :: n) (u ++ (c :: n ++ w))) u w := by
  refine ⟨⟨rfl, hplace⟩, fun before after h => Nat.le_of_not_lt fun hlt => hu ?_⟩
  obtain ⟨m, rfl, -⟩ := exists_between hc h.eq_append.symm hlt
  exact ⟨before, m, by rw [List.append_assoc]⟩

/-- Behind a first mention that is passed over, the scan starts anew. -/
theorem isFirst_behind_iff (hc : c ∉ n) (hu : ¬ c :: n <:+: u) (hplace : ¬ IsPlace (c :: n) u) :
    IsFirst (Mentions (c :: n) (u ++ (c :: n ++ w))) before after ↔
      ∃ m, before = u ++ (c :: n ++ m) ∧ IsFirst (Mentions (c :: n) w) m after := by
  have hiff (before after : Bytes) : Mentions (c :: n) (u ++ (c :: n ++ w)) before after ↔
      ∃ m, before = u ++ (c :: n ++ m) ∧ Mentions (c :: n) w m after := by
    constructor
    · rintro ⟨h, hbefore⟩
      rcases Nat.lt_trichotomy u.length before.length with hlt | heq | hgt
      · obtain ⟨m, rfl, rfl⟩ := exists_between hc h hlt
        exact ⟨m, rfl, rfl, (isPlace_append_iff hc u m).1 hbefore⟩
      · obtain ⟨rfl, -⟩ := List.append_inj h heq
        exact absurd hbefore hplace
      · obtain ⟨m, rfl, -⟩ := exists_between hc h.symm hgt
        exact absurd ⟨before, m, by simp⟩ hu
    · rintro ⟨m, rfl, rfl, hm⟩
      exact ⟨by simp, (isPlace_append_iff hc u m).2 hm⟩
  constructor
  · intro h
    obtain ⟨m, rfl, hm⟩ := (hiff _ _).1 h.holds
    refine ⟨m, rfl, hm, fun m' after' h' => ?_⟩
    have hle := h.least _ _ ((hiff _ _).2 ⟨m', rfl, h'⟩)
    simp only [List.length_append] at hle
    omega
  · rintro ⟨m, rfl, hm⟩
    refine ⟨(hiff _ _).2 ⟨m, rfl, hm.holds⟩, fun before' after' h' => ?_⟩
    obtain ⟨m', rfl, hm'⟩ := (hiff _ _).1 h'
    have hle := hm.least _ _ hm'
    simp only [List.length_append]
    omega

/-! ### The scan -/

/-- The bytes end where an attribute may start. -/
def isOpen (before : Bytes) : Bool :=
  match before.getLast? with
  | some b => isBlankByte b || b = 59
  | none => true

theorem isOpen_iff :
    isOpen before = true ↔ ∀ b ∈ before.getLast?, isBlankByte b = true ∨ b = 59 := by
  unfold isOpen
  cases before.getLast? <;> simp

theorem attributeWithin_succ (name s : Bytes) (fuel : Nat) :
    attributeWithin name (fuel + 1) s = (cut name s).bind fun (before, after) =>
      if isOpen before then valueBehind? after else attributeWithin name fuel after := by
  rw [attributeWithin]
  rfl

/-- The first mention in a place has the value. By induction on the mentions that are passed over.
-/
theorem attributeWithin_eq_some_iff (hc : c ∉ n) {fuel : Nat} (hfuel : s.length < fuel)
    {v : Bytes} :
    attributeWithin (c :: n) fuel s = some v ↔
      ∃ before after, IsFirst (Mentions (c :: n) s) before after ∧ valueBehind? after = some v := by
  induction fuel generalizing s with
  | zero => cases hfuel
  | succ fuel ih =>
    rw [attributeWithin_succ]
    cases hcut : cut (c :: n) s with
    | none =>
      have hnone := cut_eq_none_iff.1 hcut
      refine ⟨nofun, ?_⟩
      rintro ⟨before, after, h, -⟩
      exact absurd ⟨before, after, by rw [h.holds.eq_append, List.append_assoc]⟩ hnone
    | some p =>
      obtain ⟨u, w⟩ := p
      obtain rfl := eq_append_of_cut hcut
      have hu := not_infix_of_cut (List.cons_ne_nil _ _) hcut
      rw [Option.bind_some]
      dsimp only
      split_ifs with hplace
      · have hfirst := isFirst_here (w := w) hc hu (.inl (isOpen_iff.1 hplace))
        refine ⟨fun hv => ⟨u, w, hfirst, hv⟩, ?_⟩
        rintro ⟨before, after, h, hv⟩
        obtain ⟨rfl, hafter⟩ := List.append_inj h.holds.eq_append (hfirst.length_eq h)
        rwa [List.append_cancel_left hafter]
      · have hpassed : ¬ IsPlace (c :: n) u := fun h =>
          h.elim (fun hlast => hplace (isOpen_iff.2 hlast)) fun h => hu h.isInfix
        have hlength : w.length < fuel := by
          simp only [List.length_append, List.length_cons] at hfuel
          omega
        rw [ih hlength]
        constructor
        · rintro ⟨m, after, h, hv⟩
          exact ⟨_, after, (isFirst_behind_iff hc hu hpassed).2 ⟨m, rfl, h⟩, hv⟩
        · rintro ⟨before, after, h, hv⟩
          obtain ⟨m, -, hm⟩ := (isFirst_behind_iff hc hu hpassed).1 h
          exact ⟨m, after, hm, hv⟩

end Mockup.Http.Multipart
