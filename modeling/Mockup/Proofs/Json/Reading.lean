import Mockup.Json.Writer
import Mockup.Proofs.Json.Machine

/-! What is written is read back: the written text is a text of the value. -/

namespace Mockup.Json

/-! ### Strings -/

theorem hexDigit_isHexDigit {n : Nat} (h : n < 16) : IsHexDigit (hexDigit n) n := by
  left
  revert n
  decide

theorem isSpelled_escape (c : Char) : IsSpelled c (escape c) := by
  unfold escape
  split_ifs with hq hb hn hr ht h8 h12 hc
  · subst hq
    exact .short (by decide)
  · subst hb
    exact .short (by decide)
  · subst hn
    exact .short (by decide)
  · subst hr
    exact .short (by decide)
  · subst ht
    exact .short (by decide)
  · rw [← Char.ofNat_toNat c, h8]
    exact .short (by decide)
  · rw [← Char.ofNat_toNat c, h12]
    exact .short (by decide)
  · have hzero : IsHexDigit '0' 0 := hexDigit_isHexDigit (by decide)
    have hunit := IsCodeUnit.digits hzero hzero (hexDigit_isHexDigit (n := c.toNat / 16) (by omega))
      (hexDigit_isHexDigit (n := c.toNat % 16) (by omega))
    have hvalue : 0x1000 * 0 + 0x100 * 0 + 0x10 * (c.toNat / 16) + c.toNat % 16 = c.toNat := by
      omega
    rw [hvalue] at hunit
    exact .unit hunit
  · exact .plain hq hb (Nat.not_lt.1 hc)

theorem quoted_escape (cs : List Char) : Quoted cs (cs.flatMap escape) := by
  induction cs with
  | nil => exact .nil
  | cons c cs ih => exact .cons (isSpelled_escape c) ih

theorem written_string (k : String) : (Token.text k).Written (writeString k) :=
  .text (quoted_escape k.toList)

/-! ### Numbers -/

theorem isDigits_digits (n : Nat) : IsDigits (Number.digits n) := by
  refine ⟨Nat.toDigits_ne_nil, fun c hc => ?_⟩
  have h := Nat.isDigit_of_mem_toDigits (by decide) (by decide) hc
  simpa [Char.isDigit, Number.isDigit, Char.le_def] using h

theorem ofDigits_digits (n : Nat) : Number.ofDigits (Number.digits n) = n :=
  Nat.ofDigitChars_toDigits (by decide) (by decide)

/-- Only the digits of zero start with a zero. -/
theorem eq_zero_of_digits_head {n : Nat} (h : (Number.digits n).head? = some '0') : n = 0 := by
  induction n using Nat.strongRecOn with
  | ind n ih =>
    unfold Number.digits at h ih
    have small (k : Nat) (hk : k < 10) (h : [k.digitChar].head? = some '0') : k = 0 := by
      decide +revert
    by_cases hn : n < 10
    · rw [Nat.toDigits_of_lt_base hn] at h
      exact small n hn h
    · rw [Nat.toDigits_of_base_le (by decide) (by omega),
        List.head?_append_of_ne_nil _ Nat.toDigits_ne_nil] at h
      have := ih (n / 10) (by omega) h
      omega

theorem isWhole_digits (n : Nat) : IsWhole (Number.digits n) n := by
  refine ⟨isDigits_digits n, fun h => ?_, (ofDigits_digits n).symm⟩
  rw [eq_zero_of_digits_head h]
  decide

theorem isFraction_write (ds : List (Fin 10)) :
    IsFraction (if ds.isEmpty then [] else '.' :: ds.map fun d => Number.digitChar d.val) ds := by
  have hdigit (d : Fin 10) : Number.isDigit (Number.digitChar d.val) = true ∧
      Number.digit (Number.digitChar d.val) = d := by
    revert d
    decide
  cases ds with
  | nil => exact .none
  | cons d ds =>
    have h : IsDigits ((d :: ds).map fun d => Number.digitChar d.val) := by
      refine ⟨by simp, fun c hc => ?_⟩
      obtain ⟨e, -, rfl⟩ := List.mem_map.1 hc
      exact (hdigit e).1
    have hvalue : ((d :: ds).map fun d => Number.digitChar d.val).map Number.digit = d :: ds := by
      rw [List.map_map]
      exact (List.map_congr_left fun e _ => (hdigit e).2).trans (List.map_id _)
    have hpoint := IsFraction.point h
    rwa [hvalue] at hpoint

theorem isExponent_write (e : Int) :
    IsExponent ('e' :: (if e < 0 then '-' else '+') :: Number.digits e.natAbs) (some e) := by
  have h := isDigits_digits e.natAbs
  by_cases he : e < 0
  · have hminus := IsExponent.minus (.inl rfl) h
    rw [ofDigits_digits, show -(e.natAbs : Int) = e by omega] at hminus
    rwa [if_pos he]
  · have hplus := IsExponent.plus (.inl rfl) h
    rw [ofDigits_digits, show (e.natAbs : Int) = e by omega] at hplus
    rwa [if_neg he]

theorem isUnsigned_write (negative : Bool) (whole : Nat) (fraction : List (Fin 10))
    (exponent : Option Int) : IsUnsigned negative
      (Numeral.write ⟨false, whole, fraction, exponent⟩) ⟨negative, whole, fraction, exponent⟩ := by
  simp only [Numeral.write, Bool.false_eq_true, if_false, List.nil_append, List.append_assoc]
  refine .parts (isWhole_digits whole) (isFraction_write fraction) ?_
  cases exponent with
  | none => exact .none
  | some e => exact isExponent_write e

theorem isNumeral_write (n : Numeral) : IsNumeral n.write n := by
  obtain ⟨negative, whole, fraction, exponent⟩ := n
  cases negative with
  | false => exact .positive (isUnsigned_write ..)
  | true => exact .negative (isUnsigned_write ..)

theorem written_number {n : Numeral} {w : List Char}
    (h : (Token.scalar (number n)).Written w) : (Token.scalar (number n)).Written n.write := by
  cases h with
  | number _ hn => exact .number (isNumeral_write n) hn

/-! ### Values -/

theorem Laid.adjoin {t : Token} {ts : List Token} {w s : List Char} (hw : t.Written w)
    (h : Laid ts s) : Laid (t :: ts) (w ++ s) := .cons (b := []) (by simp) hw h

/-- The tokens of which a text can be made. A number that is out of range has none. -/
def Writable (ts : List Token) : Prop := ∀ t ∈ ts, ∃ w, t.Written w

theorem writable_nil : Writable [] := fun _ h => absurd h List.not_mem_nil

theorem writable_cons {t : Token} {ts : List Token} {w : List Char} (ht : t.Written w)
    (h : Writable ts) : Writable (t :: ts) := List.forall_mem_cons.2 ⟨⟨w, ht⟩, h⟩

theorem writable_append {ts us : List Token} (h : Writable ts) (h' : Writable us) :
    Writable (ts ++ us) := List.forall_mem_append.2 ⟨h, h'⟩

theorem writable_member (k : String) {ts us : List Token} (h : Writable ts) (h' : Writable us) :
    Writable (.text k :: .colon :: (ts ++ us)) :=
  writable_cons (written_string k) (writable_cons .colon (writable_append h h'))

theorem Laid.writable {ts : List Token} {s : List Char} (h : Laid ts s) : Writable ts := by
  induction h with
  | nil => simp [Writable]
  | cons _ hw _ ih => exact List.forall_mem_cons.2 ⟨⟨_, hw⟩, ih⟩

theorem Writable.item {t : Token} {ts us : List Token} (h : Writable (t :: (ts ++ us))) :
    Writable ts ∧ Writable us := List.forall_mem_append.1 (List.forall_mem_cons.1 h).2

theorem Writable.member {t : Token} {k : String} {ts us : List Token}
    (h : Writable (t :: .text k :: .colon :: (ts ++ us))) : Writable ts ∧ Writable us :=
  Writable.item (List.forall_mem_cons.1 (List.forall_mem_cons.1 h).2).2

theorem laid_name (k : String) {ts : List Token} {s : List Char} (h : Laid ts s) :
    Laid (.text k :: .colon :: ts) (writeString k ++ ':' :: s) :=
  .adjoin (written_string k) (.adjoin .colon h)

-- The writer makes a text of a value whose tokens can be written at all.
mutual

theorem laid_value {s : List Char} {ts : List Token} (hs : Laid ts s) :
    (v : Json) → Writable (spelling v) → Laid (spelling v ++ ts) (writeChars v ++ s)
  | null, _ => .adjoin .nullWord hs
  | bool true, _ => .adjoin .trueWord hs
  | bool false, _ => .adjoin .falseWord hs
  | number n, h => by
    obtain ⟨w, hw⟩ := h (.scalar (number n)) List.mem_cons_self
    exact .adjoin (written_number hw) hs
  | string k, _ => .adjoin (written_string k) hs
  | array [], _ => .adjoin (w := ['[']) .openBracket (.adjoin .closeBracket hs)
  | array (x :: xs), h => by
    obtain ⟨hx, hxs⟩ := Writable.item h
    rw [spelling, writeChars, List.cons_append, List.append_assoc, List.cons_append,
      List.append_assoc]
    exact .adjoin .openBracket (laid_value (laid_items hs xs hxs) x hx)
  | object [], _ => .adjoin (w := ['\x7b']) .openBrace (.adjoin .closeBrace hs)
  | object ((k, v) :: ms), h => by
    obtain ⟨hv, hms⟩ := Writable.member h
    simp only [spelling, writeChars, List.cons_append, List.append_assoc]
    exact .adjoin .openBrace (laid_name k (laid_value (laid_members hs ms hms) v hv))

theorem laid_items {s : List Char} {ts : List Token} (hs : Laid ts s) :
    (xs : List Json) → Writable (spellingItems xs) →
      Laid (spellingItems xs ++ ts) (writeItems xs ++ s)
  | [], _ => .adjoin .closeBracket hs
  | x :: xs, h => by
    obtain ⟨hx, hxs⟩ := Writable.item h
    rw [spellingItems, writeItems, List.cons_append, List.append_assoc, List.cons_append,
      List.append_assoc]
    exact .adjoin .comma (laid_value (laid_items hs xs hxs) x hx)

theorem laid_members {s : List Char} {ts : List Token} (hs : Laid ts s) :
    (ms : List (String × Json)) → Writable (spellingMembers ms) →
      Laid (spellingMembers ms ++ ts) (writeMembers ms ++ s)
  | [], _ => .adjoin .closeBrace hs
  | (k, v) :: ms, h => by
    obtain ⟨hv, hms⟩ := Writable.member h
    simp only [spellingMembers, writeMembers, List.cons_append, List.append_assoc]
    exact .adjoin .comma (laid_name k (laid_value (laid_members hs ms hms) v hv))

end

theorem isTextOf_write {v : Json} (hdepth : depth v ≤ maxOpen) (h : Writable (spelling v)) :
    IsTextOf v.write.toList v := by
  have hlaid := laid_value (.nil (b := []) (by simp)) v h
  rw [List.append_nil, List.append_nil] at hlaid
  rw [write, String.toList_ofList]
  exact ⟨hdepth, hlaid⟩

theorem ofText?_eq_some_iff {s : String} {v : Json} : ofText? s = some v ↔ IsTextOf s.toList v :=
  read?_eq_some_iff

/-! ### Values that can be read back -/

/-- What may follow a value: nothing, or a mark that ends it. -/
def Ends (s : List Char) : Prop :=
  s = [] ∨ ∃ c r, s = c :: r ∧ (c = ',' ∨ c = ']' ∨ c = '\x7d')

/-- The numeral is read back, wherever it ends. -/
def IsLegible (n : Numeral) : Prop :=
  ∀ r, Ends r → Token.read? (n.write ++ r) = some (.scalar (number n), r)

mutual

/-- The value can be read back where `room` more containers may be opened. -/
def Readable : Nat → Json → Prop
  | _, null | _, bool _ | _, string _ => True
  | _, number n => IsLegible n
  | room, array xs => 0 < room ∧ ReadableItems (room - 1) xs
  | room, object ms => 0 < room ∧ ReadableMembers (room - 1) ms

def ReadableItems : Nat → List Json → Prop
  | _, [] => True
  | room, x :: xs => Readable room x ∧ ReadableItems room xs

def ReadableMembers : Nat → List (String × Json) → Prop
  | _, [] => True
  | room, (_, v) :: ms => Readable room v ∧ ReadableMembers room ms

end

theorem Ends.endsNumber {s : List Char} (h : Ends s) : EndsNumber s := by
  obtain rfl | ⟨c, r, rfl, rfl | rfl | rfl⟩ := h
  · exact endsNumber_nil
  · exact Token.Written.comma.endsNumber trivial r
  · exact Token.Written.closeBracket.endsNumber trivial r
  · exact Token.Written.closeBrace.endsNumber trivial r

/-- Nothing but its range keeps a numeral from being read back. -/
theorem isLegible_iff {n : Numeral} : IsLegible n ↔ InRange n := by
  constructor
  · intro h
    obtain ⟨w, hw, -⟩ := Token.exists_written_of_read? (h [] (.inl rfl))
    cases hw with
    | number _ hn => exact hn
  · exact fun hn r hr => Token.read?_number (isNumeral_write n) hn hr.endsNumber

mutual

theorem Readable.spelled {room : Nat} :
    (v : Json) → Readable room v → depth v ≤ room ∧ Writable (spelling v)
  | null, _ => ⟨Nat.zero_le _, writable_cons .nullWord writable_nil⟩
  | bool true, _ => ⟨Nat.zero_le _, writable_cons .trueWord writable_nil⟩
  | bool false, _ => ⟨Nat.zero_le _, writable_cons .falseWord writable_nil⟩
  | number n, h =>
    ⟨Nat.zero_le _, writable_cons (.number (isNumeral_write n) (isLegible_iff.1 h)) writable_nil⟩
  | string k, _ => ⟨Nat.zero_le _, writable_cons (written_string k) writable_nil⟩
  | array [], h => ⟨h.1, writable_cons .openBracket (writable_cons .closeBracket writable_nil)⟩
  | array (x :: xs), ⟨hroom, hx, hxs⟩ => by
    obtain ⟨hdx, hwx⟩ := Readable.spelled x hx
    obtain ⟨hdxs, hwxs⟩ := ReadableItems.spelled xs hxs
    refine ⟨?_, writable_cons .openBracket (writable_append hwx hwxs)⟩
    rw [depth, depthItems]
    omega
  | object [], h => ⟨h.1, writable_cons .openBrace (writable_cons .closeBrace writable_nil)⟩
  | object ((k, v) :: ms), ⟨hroom, hv, hms⟩ => by
    obtain ⟨hdv, hwv⟩ := Readable.spelled v hv
    obtain ⟨hdms, hwms⟩ := ReadableMembers.spelled ms hms
    refine ⟨?_, writable_cons .openBrace (writable_member k hwv hwms)⟩
    rw [depth, depthMembers]
    omega

theorem ReadableItems.spelled {room : Nat} :
    (xs : List Json) → ReadableItems room xs → depthItems xs ≤ room ∧ Writable (spellingItems xs)
  | [], _ => ⟨Nat.zero_le _, writable_cons .closeBracket writable_nil⟩
  | x :: xs, ⟨hx, hxs⟩ => by
    obtain ⟨hdx, hwx⟩ := Readable.spelled x hx
    obtain ⟨hdxs, hwxs⟩ := ReadableItems.spelled xs hxs
    exact ⟨Nat.max_le.2 ⟨hdx, hdxs⟩, writable_cons .comma (writable_append hwx hwxs)⟩

theorem ReadableMembers.spelled {room : Nat} : (ms : List (String × Json)) →
    ReadableMembers room ms → depthMembers ms ≤ room ∧ Writable (spellingMembers ms)
  | [], _ => ⟨Nat.zero_le _, writable_cons .closeBrace writable_nil⟩
  | (k, v) :: ms, ⟨hv, hms⟩ => by
    obtain ⟨hdv, hwv⟩ := Readable.spelled v hv
    obtain ⟨hdms, hwms⟩ := ReadableMembers.spelled ms hms
    exact ⟨Nat.max_le.2 ⟨hdv, hdms⟩, writable_cons .comma (writable_member k hwv hwms)⟩

end

/-- What is written is read back. -/
theorem ofText?_write {v : Json} (h : Readable maxOpen v) : ofText? v.write = some v := by
  obtain ⟨hdepth, hwritable⟩ := Readable.spelled v h
  exact ofText?_eq_some_iff.2 (isTextOf_write hdepth hwritable)

end Mockup.Json
