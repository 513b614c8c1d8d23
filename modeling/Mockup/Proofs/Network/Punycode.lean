import Mathlib.Data.List.TakeWhile
import Mathlib.Tactic.Ring
import Mockup.Network.Domain.Punycode
import Mockup.Proofs.Text.Words

/-! What is written is read back. Writer and reader go along the label together: the characters that
are out are those of the code points before the one that is due, and of that one up to where the
writer stands; the places that the writer has passed over since are the ones that the reader has yet
to pass. -/

namespace Mockup.Network.Domain.Punycode

/-! ### Code points in rising order -/

theorem eraseReps_loop (a : Nat) (as acc : List Nat) :
    List.eraseRepsBy.loop (· == ·) a as acc =
      acc.reverse ++ List.eraseRepsBy.loop (· == ·) a as [] := by
  induction as generalizing a acc with
  | nil => simp [List.eraseRepsBy.loop]
  | cons b as ih =>
    rw [List.eraseRepsBy.loop, List.eraseRepsBy.loop]
    cases a == b with
    | true => exact ih a acc
    | false =>
      dsimp only
      rw [ih b (a :: acc), ih b [a], List.reverse_cons, List.append_assoc, List.reverse_singleton]

theorem eraseReps_cons_cons (a b : Nat) (as : List Nat) :
    (a :: b :: as).eraseReps = if a = b then (a :: as).eraseReps else a :: (b :: as).eraseReps := by
  change List.eraseRepsBy.loop (· == ·) a (b :: as) [] = _
  rw [List.eraseRepsBy.loop]
  split_ifs with h
  · rw [beq_iff_eq.2 h]
    rfl
  · rw [beq_eq_false_iff_ne.2 h]
    exact eraseReps_loop b as [a]

theorem mem_eraseReps {x a : Nat} {as : List Nat} :
    x ∈ (a :: as).eraseReps ↔ x ∈ a :: as := by
  induction as generalizing a with
  | nil => rfl
  | cons b as ih =>
    rw [eraseReps_cons_cons]
    split_ifs with h
    · subst h
      rw [ih]
      simp
    · rw [List.mem_cons, ih, List.mem_cons (l := b :: as)]

theorem pairwise_eraseReps {a : Nat} {as : List Nat} (h : (a :: as).Pairwise (· ≤ ·)) :
    (a :: as).eraseReps.Pairwise (· < ·) := by
  induction as generalizing a with
  | nil => exact List.pairwise_singleton _ _
  | cons b as ih =>
    obtain ⟨ha, htail⟩ := List.pairwise_cons.1 h
    rw [eraseReps_cons_cons]
    split_ifs with hab
    · subst hab
      exact ih htail
    · refine List.pairwise_cons.2 ⟨fun x hx => ?_, ih htail⟩
      have hbx : b ≤ x := by
        rcases List.mem_cons.1 (mem_eraseReps.1 hx) with rfl | hx
        · exact Nat.le_refl _
        · exact (List.pairwise_cons.1 htail).1 x hx
      have := ha b List.mem_cons_self
      omega

theorem mem_codes {label : List Char} {n : Nat} :
    n ∈ codes label ↔ firstCode ≤ n ∧ ∃ c ∈ label, c.toNat = n := by
  have hmem : n ∈ codes label ↔ n ∈ ((label.map Char.toNat).filter (firstCode ≤ ·)).mergeSort
      (· ≤ ·) := by
    unfold codes
    cases ((label.map Char.toNat).filter (firstCode ≤ ·)).mergeSort (· ≤ ·) with
    | nil => rfl
    | cons a as => exact mem_eraseReps
  rw [hmem, List.mem_mergeSort, List.mem_filter, List.mem_map, decide_eq_true_eq, and_comm]

theorem pairwise_codes (label : List Char) : (codes label).Pairwise (· < ·) := by
  have hsorted := @List.pairwise_mergeSort Nat (fun a b => decide (a ≤ b))
    (by simpa using fun a b c => Nat.le_trans) (by simpa using Nat.le_total)
    ((label.map Char.toNat).filter (firstCode ≤ ·))
  unfold codes
  cases h : ((label.map Char.toNat).filter (firstCode ≤ ·)).mergeSort (· ≤ ·) with
  | nil => exact List.Pairwise.nil
  | cons a as =>
    rw [h] at hsorted
    exact pairwise_eraseReps (hsorted.imp of_decide_eq_true)

/-! ### Digits -/

theorem digitValue?_digitChar {d : Nat} (h : d < base) : digitValue? (digitChar d) = some d := by
  have table (d : Fin 36) : digitValue? (digitChar d) = some d.val := by
    revert d
    decide
  exact table ⟨d, h⟩

def isDigit (c : Char) : Bool := (digitValue? c).isSome

theorem isDigit_digitChar {d : Nat} (h : d < base) : isDigit (digitChar d) = true := by
  rw [isDigit, digitValue?_digitChar h]
  rfl

theorem threshold_le (bias place : Nat) : threshold bias place ≤ greatest := Nat.min_le_left ..

/-- The number is taken up, and the next one begins. -/
def Reader.take? (r : Reader) (n : Nat) : Option Reader := { r with number := n }.insert?

theorem step?_of_lt {r : Reader} {d : Nat} (hd : d < threshold r.bias r.place) :
    r.step? (digitChar d) = r.take? (r.number + d * r.weight) := by
  have hbase : d < base := Nat.lt_of_lt_of_le hd ((threshold_le _ _).trans (by decide))
  rw [Reader.step?, digitValue?_digitChar hbase]
  exact if_pos hd

theorem step?_of_le {r : Reader} {d : Nat} (hd : threshold r.bias r.place ≤ d) (hbase : d < base) :
    r.step? (digitChar d) = some { r with
      number := r.number + d * r.weight
      weight := r.weight * (base - threshold r.bias r.place)
      place := r.place + base } := by
  rw [Reader.step?, digitValue?_digitChar hbase]
  exact if_neg (Nat.not_lt.2 hd)

/-- A digit that is not the last, and what is left of the number behind it. -/
theorem digit_lt_base {n t : Nat} (ht : t ≤ greatest) (h : ¬ n < t) :
    t + (n - t) % (base - t) < base ∧
      t + (n - t) % (base - t) + (n - t) / (base - t) * (base - t) = n := by
  have hspan : 0 < base - t := Nat.sub_pos_of_lt (Nat.lt_of_le_of_lt ht (by decide))
  have hmod := Nat.mod_lt (n - t) hspan
  have hsum := Nat.mod_add_div' (n - t) (base - t)
  omega

/-- Induction along the digits: each weighs as much as all numbers that could stand before it. -/
theorem readAll?_digits (bias place n : Nat) (r : Reader) (hbias : r.bias = bias)
    (hplace : r.place = place) (s : List Char) :
    r.readAll? (digits bias place n ++ s) =
      (r.take? (r.number + n * r.weight)).bind (·.readAll? s) := by
  induction place, n using digits.induct bias generalizing r with
  | case1 place n t h =>
    subst hbias hplace
    rw [digits, if_pos h, List.singleton_append, Reader.readAll?, step?_of_lt h]
  | case2 place n t h ih =>
    subst hbias hplace
    obtain ⟨hdigit, hn⟩ := digit_lt_base (t := t) (threshold_le _ _) h
    have hvalue : r.number + (t + (n - t) % (base - t)) * r.weight +
        (n - t) / (base - t) * (r.weight * (base - t)) = r.number + n * r.weight := by
      conv_rhs => rw [← hn]
      ring
    have hrest := ih { r with
      number := r.number + (t + (n - t) % (base - t)) * r.weight
      weight := r.weight * (base - t)
      place := r.place + base } rfl rfl
    rw [digits, if_neg h, List.cons_append, Reader.readAll?,
      step?_of_le (Nat.le_add_right _ _) hdigit, Option.bind_some]
    refine hrest.trans ?_
    dsimp only
    rw [hvalue]
    rfl

theorem isDigit_of_mem_digits (bias place n : Nat) :
    ∀ c ∈ digits bias place n, isDigit c = true := by
  induction place, n using digits.induct bias with
  | case1 place n t h =>
    have hbase : n < base := Nat.lt_of_lt_of_le h ((threshold_le _ _).trans (by decide))
    rw [digits, if_pos h, List.forall_mem_singleton]
    exact isDigit_digitChar hbase
  | case2 place n t h ih =>
    obtain ⟨hdigit, -⟩ := digit_lt_base (t := t) (threshold_le _ _) h
    rw [digits, if_neg h, List.forall_mem_cons]
    exact ⟨isDigit_digitChar hdigit, ih⟩

/-! ### Along the label -/

/-- Where writer and reader stand when `due` is written, `pre` has been passed over and `post` is
still to come. The places that the reader has passed and those that the writer has counted make up
the way to the next character. -/
structure Keeps (basic due : Nat) (pre post : List Char) (w : Writer) (r : Reader) : Prop where
  out : r.out = pre.filter (·.toNat ≤ due) ++ post.filter (·.toNat < due)
  count : w.count = r.out.length
  bias : r.bias = w.bias
  number : r.number = 0
  weight : r.weight = 1
  place : r.place = base
  code_le : r.code ≤ due
  passed : r.index + w.delta =
    (due - r.code) * (w.count + 1) + (pre.filter (·.toNat ≤ due)).length
  first : w.count = basic ↔ r.index = 0
  basic_le : basic ≤ w.count

/-- The digits lead the reader from one state to another. -/
structure Leads (r : Reader) (text : List Char) (r' : Reader) : Prop where
  isDigit : ∀ c ∈ text, isDigit c = true
  reads : ∀ s, r.readAll? (text ++ s) = r'.readAll? s

theorem Leads.refl (r : Reader) : Leads r [] r := ⟨nofun, fun _ => rfl⟩

theorem Leads.trans {r r' r'' : Reader} {text text' : List Char} (h : Leads r text r')
    (h' : Leads r' text' r'') : Leads r (text ++ text') r'' where
  isDigit := List.forall_mem_append.2 ⟨h.isDigit, h'.isDigit⟩
  reads s := by rw [List.append_assoc, h.reads, h'.reads]

variable {basic due : Nat} {pre post : List Char} {c : Char} {w : Writer} {r : Reader}

theorem char?_toNat (c : Char) : char? c.toNat = some c := by
  have hvalid : c.toNat.isValidChar := c.valid
  rw [char?, if_pos hvalid, Char.ofNat_toNat]

/-- The reader when it has put a character to its place. -/
def Reader.behind (basic due : Nat) (pre : List Char) (c : Char) (post : List Char) (w : Writer) :
    Reader where
  out := pre.filter (·.toNat ≤ due) ++ c :: post.filter (·.toNat < due)
  code := due
  index := (pre.filter (·.toNat ≤ due)).length + 1
  bias := adapt w.delta (w.count + 1) (w.count = basic)

/-- The number that is due takes the reader to the place of the character. -/
theorem take?_of_keeps (hc : c.toNat = due) (h : Keeps basic due pre (c :: post) w r) :
    r.take? w.delta = some (.behind basic due pre c post w) := by
  have hpost : (c :: post).filter (·.toNat < due) = post.filter (·.toNat < due) :=
    List.filter_cons_of_neg (by simp [hc])
  have hout := h.out
  rw [hpost] at hout
  have hplace : (pre.filter (·.toNat ≤ due)).length < w.count + 1 := by
    rw [h.count, hout, List.length_append]
    omega
  have hdiv : (r.index + w.delta) / (w.count + 1) = due - r.code := by
    rw [h.passed, Nat.mul_comm, Nat.mul_add_div (Nat.succ_pos _), Nat.div_eq_of_lt hplace,
      Nat.add_zero]
  have hmod : (r.index + w.delta) % (w.count + 1) = (pre.filter (·.toNat ≤ due)).length := by
    rw [h.passed, Nat.mul_comm, Nat.mul_add_mod, Nat.mod_eq_of_lt hplace]
  have hcode : r.code + (due - r.code) = c.toNat := by
    rw [hc]
    exact Nat.add_sub_cancel' h.code_le
  have hfirst : decide (r.index = 0) = decide (w.count = basic) := decide_eq_decide.2 h.first.symm
  unfold Reader.take? Reader.insert?
  dsimp only
  rw [← h.count, hdiv, hmod, hcode, char?_toNat, hfirst, hout, List.take_left, List.drop_left, hc]
  rfl

/-- A character before the one that is due is passed over. -/
theorem Keeps.pass_of_lt (hc : c.toNat < due) (h : Keeps basic due pre (c :: post) w r) :
    Keeps basic due (pre ++ [c]) post { w with delta := w.delta + 1 } r := by
  have hpre : (pre ++ [c]).filter (·.toNat ≤ due) = pre.filter (·.toNat ≤ due) ++ [c] := by
    rw [List.filter_append, List.filter_cons_of_pos (by simpa using Nat.le_of_lt hc),
      List.filter_nil]
  have hpost : (c :: post).filter (·.toNat < due) = c :: post.filter (·.toNat < due) :=
    List.filter_cons_of_pos (by simpa using hc)
  refine { h with out := ?_, passed := ?_ }
  · rw [h.out, hpre, hpost, List.append_assoc]
    rfl
  · have := h.passed
    rw [hpre, List.length_append, List.length_singleton]
    dsimp only
    omega

/-- A character behind the one that is due has its turn later. -/
theorem Keeps.pass_of_gt (hc : due < c.toNat) (h : Keeps basic due pre (c :: post) w r) :
    Keeps basic due (pre ++ [c]) post w r := by
  have hpre : (pre ++ [c]).filter (·.toNat ≤ due) = pre.filter (·.toNat ≤ due) := by
    rw [List.filter_append, List.filter_cons_of_neg (by simpa using hc), List.filter_nil,
      List.append_nil]
  have hpost : (c :: post).filter (·.toNat < due) = post.filter (·.toNat < due) :=
    List.filter_cons_of_neg (by simpa using Nat.le_of_lt hc)
  refine { h with out := ?_, passed := ?_ }
  · rw [h.out, hpre, hpost]
  · rw [h.passed, hpre]

/-- The character that is due is written, and put to its place. -/
theorem Keeps.pass_of_eq (hc : c.toNat = due) (h : Keeps basic due pre (c :: post) w r) :
    ∃ r', Leads r (digits w.bias base w.delta) r' ∧ Keeps basic due (pre ++ [c]) post
      ⟨w.out ++ digits w.bias base w.delta, w.count + 1, 0,
        adapt w.delta (w.count + 1) (w.count = basic)⟩ r' := by
  have hpre : (pre ++ [c]).filter (·.toNat ≤ due) = pre.filter (·.toNat ≤ due) ++ [c] := by
    rw [List.filter_append, List.filter_cons_of_pos (by simp [hc]), List.filter_nil]
  have hpost : (c :: post).filter (·.toNat < due) = post.filter (·.toNat < due) :=
    List.filter_cons_of_neg (by simp [hc])
  have hcount := h.count
  rw [h.out, hpost, List.length_append] at hcount
  refine ⟨.behind basic due pre c post w, ⟨isDigit_of_mem_digits _ _ _, fun s => ?_⟩, ?_⟩
  · rw [readAll?_digits w.bias base w.delta r h.bias h.place, h.number, h.weight, Nat.zero_add,
      Nat.mul_one, take?_of_keeps hc h]
    rfl
  · unfold Reader.behind
    constructor
    · dsimp only
      rw [hpre, List.append_assoc]
      rfl
    · simp only [List.length_append, List.length_cons]
      omega
    · rfl
    · rfl
    · rfl
    · rfl
    · exact Nat.le_refl _
    · rw [hpre, List.length_append, List.length_singleton, Nat.sub_self, Nat.zero_mul,
        Nat.zero_add]
      rfl
    · have := h.basic_le
      dsimp only
      omega
    · exact Nat.le_succ_of_le h.basic_le

/-- One character of the label. -/
theorem Keeps.pass (h : Keeps basic due pre (c :: post) w r) :
    ∃ r' text, (w.pass basic due c).out = w.out ++ text ∧ Leads r text r' ∧
      Keeps basic due (pre ++ [c]) post (w.pass basic due c) r' := by
  unfold Writer.pass
  split_ifs with hlt heq
  · exact ⟨r, [], (List.append_nil _).symm, .refl r, h.pass_of_lt hlt⟩
  · obtain ⟨r', hleads, hkeeps⟩ := h.pass_of_eq heq
    exact ⟨r', _, rfl, hleads, hkeeps⟩
  · exact ⟨r, [], (List.append_nil _).symm, .refl r, h.pass_of_gt (by omega)⟩

/-- The whole label, for one code point. -/
theorem Keeps.foldl (h : Keeps basic due pre post w r) :
    ∃ r' text, (post.foldl (Writer.pass basic due) w).out = w.out ++ text ∧ Leads r text r' ∧
      Keeps basic due (pre ++ post) [] (post.foldl (Writer.pass basic due) w) r' := by
  induction post generalizing pre w r with
  | nil => exact ⟨r, [], (List.append_nil _).symm, .refl r, by rwa [List.append_nil]⟩
  | cons c post ih =>
    obtain ⟨r₁, text₁, hout₁, hleads₁, hkeeps₁⟩ := h.pass
    obtain ⟨r₂, text₂, hout₂, hleads₂, hkeeps₂⟩ := ih hkeeps₁
    refine ⟨r₂, text₁ ++ text₂, ?_, hleads₁.trans hleads₂, ?_⟩
    · rw [List.foldl_cons, hout₂, hout₁, List.append_assoc]
    · rw [List.foldl_cons]
      rwa [List.append_assoc] at hkeeps₂

/-! ### Code point by code point -/

variable {label : List Char} {code : Nat}

/-- Where writer and reader stand between two code points. -/
structure Stands (label : List Char) (basic code : Nat) (w : Writer) (r : Reader) : Prop where
  out : r.out = label.filter (·.toNat < code)
  count : w.count = r.out.length
  bias : r.bias = w.bias
  number : r.number = 0
  weight : r.weight = 1
  place : r.place = base
  code_le : r.code ≤ code
  passed : r.index + w.delta = (code - r.code) * (w.count + 1)
  first : w.count = basic ↔ r.index = 0
  basic_le : basic ≤ w.count

/-- The code points that the label lacks are passed over at once. -/
theorem Stands.keeps (h : Stands label basic code w r) (hle : code ≤ due)
    (hlacks : ∀ c ∈ label, c.toNat < code ∨ due ≤ c.toNat) :
    Keeps basic due [] label { w with delta := w.delta + (due - code) * (w.count + 1) } r := by
  have hfilter : label.filter (·.toNat < code) = label.filter (·.toNat < due) := by
    refine List.filter_congr fun c hc => decide_eq_decide.2 ?_
    have := hlacks c hc
    omega
  have hcode := h.code_le
  have hpassed := h.passed
  have hspan : due - r.code = (code - r.code) + (due - code) := by omega
  refine { h with out := ?_, code_le := hcode.trans hle, passed := ?_ }
  · rw [h.out, hfilter]
    rfl
  · dsimp only
    rw [hspan, Nat.add_mul, ← Nat.add_assoc, hpassed]
    rfl

/-- A code point is done, and the next one comes. -/
theorem Keeps.stands (h : Keeps basic due label [] w r) :
    Stands label basic (due + 1) { w with delta := w.delta + 1 } r := by
  have hout := h.out
  rw [List.filter_nil, List.append_nil] at hout
  have hcount := h.count
  rw [hout] at hcount
  have hspan : due + 1 - r.code = (due - r.code) + 1 := Nat.succ_sub h.code_le
  refine { h with out := ?_, code_le := Nat.le_succ_of_le h.code_le, passed := ?_ }
  · rw [hout]
    exact List.filter_congr fun c _ => decide_eq_decide.2 Nat.lt_succ_iff.symm
  · have := h.passed
    dsimp only
    rw [hspan, Nat.add_mul, Nat.one_mul]
    omega

/-- All code points, in rising order. -/
theorem Stands.writeAll {dues : List Nat} (h : Stands label basic code w r)
    (hle : ∀ due ∈ dues, code ≤ due) (hdues : dues.Pairwise (· < ·))
    (hmem : ∀ c ∈ label, c.toNat < code ∨ c.toNat ∈ dues) :
    ∃ r' text, (Writer.writeAll label basic code w dues).out = w.out ++ text ∧ Leads r text r' ∧
      r'.out = label ∧ r'.place = base := by
  induction dues generalizing code w r with
  | nil =>
    refine ⟨r, [], (List.append_nil _).symm, .refl r, ?_, h.place⟩
    rw [h.out, List.filter_eq_self]
    exact fun c hc => decide_eq_true ((hmem c hc).resolve_right List.not_mem_nil)
  | cons due dues ih =>
    obtain ⟨hdue, htail⟩ := List.pairwise_cons.1 hdues
    have hlacks (c : Char) (hc : c ∈ label) : c.toNat < code ∨ due ≤ c.toNat := by
      rcases hmem c hc with hlt | hmem
      · exact .inl hlt
      · rcases List.mem_cons.1 hmem with heq | hmem
        · exact .inr (Nat.le_of_eq heq.symm)
        · exact .inr (Nat.le_of_lt (hdue _ hmem))
    obtain ⟨r₁, text₁, hout₁, hleads₁, hkeeps₁⟩ :=
      (h.keeps (hle due List.mem_cons_self) hlacks).foldl
    obtain ⟨r₂, text₂, hout₂, hleads₂, hlabel⟩ := ih hkeeps₁.stands
      (fun n hn => hdue n hn) htail fun c hc => by
        rcases hmem c hc with hlt | hmem
        · have := hle due List.mem_cons_self
          omega
        · rcases List.mem_cons.1 hmem with heq | hmem
          · omega
          · exact .inr hmem
    refine ⟨r₂, text₁ ++ text₂, ?_, hleads₁.trans hleads₂, hlabel⟩
    rw [Writer.writeAll]
    dsimp only at hout₁ hout₂ ⊢
    rw [hout₂, hout₁, List.append_assoc]

/-! ### The whole -/

/-- The reader that has read no number yet. -/
theorem stands_start (label : List Char) : Stands label (label.filter (·.toNat < firstCode)).length
    firstCode
    { out := if (label.filter (·.toNat < firstCode)).isEmpty then []
        else label.filter (·.toNat < firstCode) ++ ['-']
      count := (label.filter (·.toNat < firstCode)).length }
    { out := label.filter (·.toNat < firstCode) } where
  out := rfl
  count := rfl
  bias := rfl
  number := rfl
  weight := rfl
  place := rfl
  code_le := Nat.le_refl _
  passed := by
    dsimp only
    rw [Nat.sub_self, Nat.zero_mul]
  first := ⟨fun _ => rfl, fun _ => rfl⟩
  basic_le := Nat.le_refl _

/-- The numbers of a label, behind its characters of ASCII. -/
theorem exists_numbers (label : List Char) :
    ∃ numbers, encode label = (if (label.filter (·.toNat < firstCode)).isEmpty then []
        else label.filter (·.toNat < firstCode) ++ ['-']) ++ numbers ∧
      (∀ c ∈ numbers, isDigit c = true) ∧
      Reader.readAll? { out := label.filter (·.toNat < firstCode) } numbers = some label := by
  obtain ⟨r, numbers, hout, hleads, hlabel, hplace⟩ := (stands_start label).writeAll
    (fun n hn => (mem_codes.1 hn).1) (pairwise_codes label) fun c hc =>
      (Nat.lt_or_ge c.toNat firstCode).imp_right fun hle => mem_codes.2 ⟨hle, c, hc, rfl⟩
  refine ⟨numbers, hout, hleads.isDigit, ?_⟩
  have hread := hleads.reads []
  rw [List.append_nil] at hread
  rw [hread, Reader.readAll?, if_pos hplace, hlabel]

theorem toNat_of_isDigit {c : Char} (h : isDigit c = true) :
    48 ≤ c.toNat ∧ c.toNat ≤ 57 ∨ 97 ≤ c.toNat ∧ c.toNat ≤ 122 := by
  unfold isDigit digitValue? at h
  split_ifs at h with hletter hdigit
  · simp only [Bool.and_eq_true, decide_eq_true_eq] at hletter
    exact .inr ⟨UInt32.le_iff_toNat_le.1 hletter.1, UInt32.le_iff_toNat_le.1 hletter.2⟩
  · simp only [Bool.and_eq_true, decide_eq_true_eq] at hdigit
    exact .inl ⟨UInt32.le_iff_toNat_le.1 hdigit.1, UInt32.le_iff_toNat_le.1 hdigit.2⟩
  · cases h

theorem hyphen_notMem {numbers : List Char} (h : ∀ c ∈ numbers, isDigit c = true) :
    ∀ c ∈ numbers.reverse, c ≠ '-' := by
  rintro c hc rfl
  exact absurd (h _ (List.mem_reverse.1 hc)) (by decide)

theorem splitBasic_append {ascii numbers : List Char} (hne : ascii ≠ [])
    (h : ∀ c ∈ numbers, isDigit c = true) :
    splitBasic (ascii ++ ['-'] ++ numbers) = (ascii, numbers) := by
  have hdigits : ∀ c ∈ numbers.reverse, decide (c ≠ '-') = true := fun c hc =>
    decide_eq_true (hyphen_notMem h c hc)
  have hreverse : (ascii ++ ['-'] ++ numbers).reverse =
      numbers.reverse ++ '-' :: ascii.reverse := by
    simp
  unfold splitBasic
  rw [hreverse, List.dropWhile_append_of_pos hdigits, List.takeWhile_append_of_pos hdigits,
    List.dropWhile_cons_of_neg (by simp), List.takeWhile_cons_of_neg (by simp)]
  simp [hne]

theorem splitBasic_digits {numbers : List Char} (h : ∀ c ∈ numbers, isDigit c = true) :
    splitBasic numbers = ([], numbers) := by
  have hnone : numbers.reverse.dropWhile (· ≠ '-') = [] := by
    rw [List.dropWhile_eq_nil_iff]
    exact fun c hc => decide_eq_true (hyphen_notMem h c hc)
  unfold splitBasic
  rw [hnone]

/-- A label is told by its written form. -/
theorem decode?_encode (label : List Char) : decode? (encode label) = some label := by
  obtain ⟨numbers, hencode, hdigits, hread⟩ := exists_numbers label
  unfold decode?
  rw [hencode]
  split_ifs with hempty
  · rw [List.isEmpty_iff] at hempty
    rw [hempty] at hread
    rw [List.nil_append, splitBasic_digits hdigits]
    exact hread
  · rw [List.isEmpty_iff] at hempty
    rw [splitBasic_append hempty hdigits]
    exact hread

theorem mem_encode {label : List Char} {c : Char} (h : c ∈ encode label) :
    c ∈ label ∧ c.toNat < firstCode ∨ c = '-' ∨ isDigit c = true := by
  obtain ⟨numbers, hencode, hdigits, -⟩ := exists_numbers label
  rw [hencode, List.mem_append] at h
  rcases h with h | h
  · split_ifs at h
    · cases h
    · rw [List.mem_append, List.mem_filter, List.mem_singleton, decide_eq_true_eq] at h
      exact h.imp_right .inl
  · exact .inr (.inr (hdigits c h))

/-! ### What a written form stands for -/

/-- A character of ASCII that has been read was written as it is. -/
structure Reader.IsFrom (ascii : List Char) (r : Reader) : Prop where
  mem_out : ∀ c ∈ r.out, c ∈ ascii ∨ firstCode ≤ c.toNat
  le_code : firstCode ≤ r.code

variable {ascii : List Char}

theorem Reader.IsFrom.insert? {r' : Reader} (h : r.IsFrom ascii) (hr : r.insert? = some r') :
    r'.IsFrom ascii := by
  obtain ⟨c, hc, hr⟩ := Option.bind_eq_some_iff.1 hr
  have hcode : c.toNat = r.code + (r.index + r.number) / (r.out.length + 1) := by
    unfold char? at hc
    split_ifs at hc with hvalid
    rw [← Option.some.inj hc]
    exact Text.toNat_ofNat_of_valid hvalid
  have hle := h.le_code
  cases hr
  refine ⟨fun d hd => ?_, Nat.le_add_right_of_le hle⟩
  rcases List.mem_append.1 hd with hd | hd
  · exact h.mem_out d (List.mem_of_mem_take hd)
  · rcases List.mem_cons.1 hd with rfl | hd
    · exact .inr (hcode ▸ Nat.le_add_right_of_le hle)
    · exact h.mem_out d (List.mem_of_mem_drop hd)

theorem Reader.IsFrom.step? {r' : Reader} (h : r.IsFrom ascii) (hr : r.step? c = some r') :
    r'.IsFrom ascii := by
  obtain ⟨d, -, hr⟩ := Option.bind_eq_some_iff.1 hr
  dsimp only at hr
  split_ifs at hr
  · have hread : Reader.IsFrom ascii { r with number := r.number + d * r.weight } :=
      ⟨h.mem_out, h.le_code⟩
    exact hread.insert? hr
  · cases hr
    exact ⟨h.mem_out, h.le_code⟩

theorem Reader.IsFrom.readAll? {s : List Char} (h : r.IsFrom ascii)
    (hr : r.readAll? s = some label) : ∀ c ∈ label, c ∈ ascii ∨ firstCode ≤ c.toNat := by
  induction s generalizing r with
  | nil =>
    rw [Reader.readAll?] at hr
    split_ifs at hr
    rw [← Option.some.inj hr]
    exact h.mem_out
  | cons c s ih =>
    obtain ⟨r', hstep, hr⟩ := Option.bind_eq_some_iff.1 hr
    exact ih (h.step? hstep) hr

theorem splitBasic_subset (s : List Char) : (splitBasic s).1 ⊆ s := by
  unfold splitBasic
  split
  · rename_i d before hbefore
    have hsub : before ⊆ s := fun c hc => List.mem_reverse.1 <|
      (List.dropWhile_sublist _).subset (hbefore ▸ List.mem_cons_of_mem d hc)
    split_ifs
    · exact List.nil_subset s
    · exact fun c hc => hsub (List.mem_reverse.1 hc)
  · exact List.nil_subset s

theorem mem_of_decode? {s : List Char} (h : decode? s = some label) {c : Char} (hc : c ∈ label) :
    c ∈ s ∨ firstCode ≤ c.toNat :=
  (Reader.IsFrom.readAll? ⟨fun _ => .inl, Nat.le_refl _⟩ h c hc).imp_left (splitBasic_subset s ·)

end Mockup.Network.Domain.Punycode
