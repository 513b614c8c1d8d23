import Mathlib.Data.List.Chain
import Mockup.Proofs.Json.Numeral
import Mockup.Proofs.Json.Quotation

/-! The tokens of a text. What the reader takes off a text is a way to write the token that it
returns, and every way to write a token is read as that token. So a text is cut into exactly the
tokens that it is laid out with, if no two of them run together. -/

namespace Mockup.Json

/-! ### One token -/

theorem Token.read?_digit {d : Char} (hd : Number.isDigit d = true) (s : List Char) :
    Token.read? (d :: s) =
      (readUnsigned? false (d :: s)).map fun (n, r) => (.scalar (number n), r) := by
  rw [Token.read?]
  all_goals
    rintro _ h
    cases h
    exact absurd hd (by decide)

theorem IsUnsigned.exists_cons {negative : Bool} {w : List Char} {n : Numeral}
    (h : IsUnsigned negative w n) : ∃ d ds, w = d :: ds ∧ Number.isDigit d = true := by
  obtain ⟨hi, -, -⟩ := h
  obtain ⟨d, ds, rfl, hd⟩ := hi.1.exists_cons
  exact ⟨d, _, rfl, hd⟩

theorem Token.read?_number {w r : List Char} {n : Numeral} (hw : IsNumeral w n) (hn : InRange n)
    (hr : EndsNumber r) : Token.read? (w ++ r) = some (.scalar (number n), r) := by
  cases hw with
  | positive h =>
    obtain ⟨d, ds, rfl, hd⟩ := h.exists_cons
    rw [List.cons_append, read?_digit hd, ← List.cons_append, readUnsigned?_append h hn hr]
    rfl
  | negative h =>
    rw [List.cons_append, Token.read?, readUnsigned?_append h hn hr]
    rfl

theorem Token.read?_append {t : Token} {w r : List Char} (hw : t.Written w)
    (hr : ∀ n, t = .scalar (number n) → EndsNumber r) : Token.read? (w ++ r) = some (t, r) := by
  cases hw with
  | number h hn => exact read?_number h hn (hr _ rfl)
  | text h =>
    rw [List.cons_append, List.append_assoc, Token.read?, List.singleton_append,
      readString?_quoted h, Option.map_some]
    exact congrArg (fun k => some (Token.text k, r)) String.ofList_toList
  | _ => rfl

theorem Token.exists_written_of_read? {s r : List Char} {t : Token}
    (h : Token.read? s = some (t, r)) : ∃ w, t.Written w ∧ s = w ++ r := by
  unfold Token.read? at h
  split at h
  · cases h; exact ⟨_, .openBrace, rfl⟩
  · cases h; exact ⟨_, .closeBrace, rfl⟩
  · cases h; exact ⟨_, .openBracket, rfl⟩
  · cases h; exact ⟨_, .closeBracket, rfl⟩
  · cases h; exact ⟨_, .colon, rfl⟩
  · cases h; exact ⟨_, .comma, rfl⟩
  · obtain ⟨⟨cs, r⟩, hread, h⟩ := Option.map_eq_some_iff.1 h
    cases h
    obtain ⟨w, hw, rfl⟩ := exists_quoted_of_readString? hread
    exact ⟨_, .text (by rwa [String.toList_ofList]), by simp⟩
  · cases h; exact ⟨_, .nullWord, rfl⟩
  · cases h; exact ⟨_, .trueWord, rfl⟩
  · cases h; exact ⟨_, .falseWord, rfl⟩
  · obtain ⟨⟨n, r⟩, hread, h⟩ := Option.map_eq_some_iff.1 h
    cases h
    obtain ⟨w, hw, hn, rfl⟩ := exists_unsigned_of_readUnsigned? hread
    exact ⟨_, .number (.negative hw) hn, rfl⟩
  · obtain ⟨⟨n, r⟩, hread, h⟩ := Option.map_eq_some_iff.1 h
    cases h
    obtain ⟨w, hw, hn, rfl⟩ := exists_unsigned_of_readUnsigned? hread
    exact ⟨_, .number (.positive hw) hn, rfl⟩

theorem isSpace_digit {d : Char} (hd : Number.isDigit d = true) : isSpace d = false := by
  simp only [isSpace, Bool.or_eq_false_iff, decide_eq_false_iff_not]
  refine ⟨⟨⟨?_, ?_⟩, ?_⟩, ?_⟩ <;> (rintro rfl; revert hd; decide)

/-- A token takes at least one character, and the first is no blank. -/
theorem Token.Written.exists_cons {t : Token} {w : List Char} (h : t.Written w) :
    ∃ c cs, w = c :: cs ∧ isSpace c = false := by
  cases h with
  | number hw _ =>
    cases hw with
    | positive h =>
      obtain ⟨d, ds, rfl, hd⟩ := h.exists_cons
      exact ⟨d, ds, rfl, isSpace_digit hd⟩
    | negative _ => exact ⟨'-', _, rfl, rfl⟩
  | _ => exact ⟨_, _, rfl, rfl⟩

/-! ### The tokens of a text -/

/-- A brace, a bracket, a colon or a comma. -/
def Token.IsMark : Token → Prop
  | scalar _ | text _ => False
  | _ => True

/-- Of two tokens one behind the other, one is a mark, so the first is not taken to go on. -/
def Spaced (ts : List Token) : Prop := ts.IsChain fun t t' => t.IsMark ∨ t'.IsMark

theorem endsNumber_nil : EndsNumber [] := by simp [EndsNumber, EndsFraction, EndsDigits]

theorem endsNumber_space {c : Char} (h : isSpace c = true) (s : List Char) :
    EndsNumber (c :: s) := by
  simp only [isSpace, Bool.or_eq_true, decide_eq_true_eq] at h
  rcases h with ((rfl | rfl) | rfl) | rfl <;>
    simp [EndsNumber, EndsFraction, EndsDigits, Number.isDigit]

theorem Token.Written.endsNumber {t : Token} {w : List Char} (h : t.Written w) (ht : t.IsMark)
    (s : List Char) : EndsNumber (w ++ s) := by
  cases h with
  | nullWord | trueWord | falseWord | number _ _ | text _ => exact ht.elim
  | _ => simp [EndsNumber, EndsFraction, EndsDigits, Number.isDigit]

/-- A number may stand before blanks, a mark or the end of the text. -/
theorem Laid.endsNumber {ts : List Token} {s : List Char} (h : Laid ts s)
    (hts : ∀ t ∈ ts.head?, t.IsMark) : EndsNumber s := by
  have blanks {b s : List Char} (hb : ∀ c ∈ b, isSpace c = true) (hs : EndsNumber s) :
      EndsNumber (b ++ s) := by
    cases b with
    | nil => exact hs
    | cons c b => exact endsNumber_space (hb c List.mem_cons_self) _
  cases h with
  | nil hb => simpa using blanks hb endsNumber_nil
  | cons hb hw _ => exact blanks hb (hw.endsNumber (hts _ rfl) _)

theorem tokensWithin_of_blanks {s : List Char} (h : s.dropWhile isSpace = []) (fuel : Nat) :
    tokensWithin fuel s = some [] := by
  unfold tokensWithin
  rw [h]

theorem tokensWithin_zero {s : List Char} (h : s.dropWhile isSpace ≠ []) :
    tokensWithin 0 s = none := by
  unfold tokensWithin
  split
  · exact absurd ‹_› h
  · rfl
  · exact absurd ‹0 = _› (Nat.zero_ne_add_one _)

theorem tokensWithin_succ {s : List Char} (h : s.dropWhile isSpace ≠ []) (fuel : Nat) :
    tokensWithin (fuel + 1) s =
      (Token.read? (s.dropWhile isSpace)).bind fun p => (tokensWithin fuel p.2).map (p.1 :: ·) := by
  conv_lhs => unfold tokensWithin
  split
  · exact absurd ‹_› h
  · exact absurd ‹fuel + 1 = 0› (Nat.add_one_ne_zero _)
  · cases ‹fuel + 1 = _›
    simp only [Option.map_eq_bind]
    rfl

theorem laid_of_tokensWithin {fuel : Nat} {s : List Char} {ts : List Token}
    (h : tokensWithin fuel s = some ts) : Laid ts s := by
  induction fuel generalizing s ts with
  | zero =>
    by_cases hs : s.dropWhile isSpace = []
    · rw [tokensWithin_of_blanks hs] at h
      cases h
      exact .nil (List.dropWhile_eq_nil_iff.1 hs)
    · rw [tokensWithin_zero hs] at h
      cases h
  | succ fuel ih =>
    by_cases hs : s.dropWhile isSpace = []
    · rw [tokensWithin_of_blanks hs] at h
      cases h
      exact .nil (List.dropWhile_eq_nil_iff.1 hs)
    · rw [tokensWithin_succ hs] at h
      obtain ⟨⟨t, r⟩, hread, h⟩ := Option.bind_eq_some_iff.1 h
      obtain ⟨ts, hts, rfl⟩ := Option.map_eq_some_iff.1 h
      obtain ⟨w, hw, hsplit⟩ := Token.exists_written_of_read? hread
      have hlaid : Laid (t :: ts) (s.takeWhile isSpace ++ (w ++ r)) :=
        .cons (fun _ => List.mem_takeWhile_imp) hw (ih hts)
      rwa [← hsplit, List.takeWhile_append_dropWhile] at hlaid

theorem tokensWithin_of_laid {fuel : Nat} {s : List Char} {ts : List Token} (h : Laid ts s)
    (hts : Spaced ts) (hf : s.length ≤ fuel) : tokensWithin fuel s = some ts := by
  induction h generalizing fuel with
  | nil hb => exact tokensWithin_of_blanks (List.dropWhile_eq_nil_iff.2 hb) fuel
  | @cons t ts b w s hb hw h ih =>
    obtain ⟨hnext, hrest⟩ := List.isChain_cons.1 hts
    obtain ⟨c, cs, rfl, hc⟩ := hw.exists_cons
    have hread : Token.read? (c :: cs ++ s) = some (t, s) := Token.read?_append hw fun n hn => by
      refine h.endsNumber fun t' ht' => (hnext t' ht').resolve_left ?_
      rw [hn]
      exact id
    have hdrop : (b ++ (c :: cs ++ s)).dropWhile isSpace = c :: cs ++ s := by
      rw [List.dropWhile_append_of_pos hb]
      exact List.dropWhile_cons_of_neg (by simp [hc])
    simp only [List.length_append, List.length_cons] at hf
    cases fuel with
    | zero => omega
    | succ fuel =>
      have hmore : (b ++ (c :: cs ++ s)).dropWhile isSpace ≠ [] := by
        rw [hdrop]
        exact List.cons_ne_nil _ _
      rw [tokensWithin_succ hmore, hdrop, hread, Option.bind_some, ih hrest (by omega),
        Option.map_some]

theorem laid_of_tokens? {s : List Char} {ts : List Token} (h : tokens? s = some ts) : Laid ts s :=
  laid_of_tokensWithin h

theorem tokens?_of_laid {s : List Char} {ts : List Token} (h : Laid ts s) (hts : Spaced ts) :
    tokens? s = some ts := tokensWithin_of_laid h hts (Nat.le_refl _)

end Mockup.Json
