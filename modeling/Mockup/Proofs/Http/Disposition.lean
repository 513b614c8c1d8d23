import Mockup.Proofs.Http.Multipart
import Mockup.Proofs.Http.Quotation

/-! How a part is called. Its name and the name of its file are told between quotes. Where no name
is told, what the name of the file mentions may pass for one; and what ends in a backslash is not
heard, as the quote behind it is taken for one of the text's own. -/

namespace Mockup.Http.Multipart

open Text

/-! ### Attributes -/

/-- The value behind the first mention of a name, which stands behind a space. -/
theorem attribute?_eq {name : String} {before : Bytes} (s : Bytes) (hspace : 32 ∉ bytes name)
    (hbefore : ¬ bytes name <:+: before) :
    attribute? name (before ++ 32 :: (bytes name ++ 61 :: s)) =
      (attributeValue? s).bind Utf8.decode? := by
  unfold attribute? attributeWithin
  rw [cut_append_cons hspace hbefore, cut_append, Option.map_some]
  dsimp only [Option.bind_eq_bind, Option.bind_some]
  have hblank : (61 :: s).dropWhile isBlankByte = 61 :: s := List.dropWhile_cons_of_neg (by decide)
  rw [List.getLast?_concat, hblank]
  rfl

theorem attributeWithin_of_not_infix {name s : Bytes} (h : ¬ name <:+: s) (fuel : Nat) :
    attributeWithin name fuel s = none := by
  cases fuel with
  | zero => rfl
  | succ fuel =>
    rw [attributeWithin, cut_eq_none_iff.2 h]
    rfl

theorem attribute?_of_not_infix {name : String} {s : Bytes} (h : ¬ bytes name <:+: s) :
    attribute? name s = none := by
  rw [attribute?, attributeWithin_of_not_infix h]
  rfl

/-- Only one text of ASCII is decoded to a word. -/
theorem attribute?_eq_some_iff {name v : String} {s : Bytes}
    (hv : ∀ c ∈ v.toList, 0 < c.toNat ∧ c.toNat < 128) :
    attribute? name s = some v ↔
      attributeWithin (bytes name) (s.length + 1) s = some (bytes v) := by
  rw [attribute?, Option.bind_eq_some_iff]
  constructor
  · rintro ⟨bs, hbs, hdecode⟩
    rw [hbs, Utf8.eq_of_decode? hdecode hv]
    rfl
  · exact fun h => ⟨bytes v, h, Utf8.decode?_encode v⟩

/-! ### The disposition -/

/-- An attribute, if there is something to say. -/
def said (name : String) : Option String → Bytes
  | none => []
  | some v => 59 :: 32 :: (bytes name ++ 61 :: quote (bytes v))

/-- The field that tells how a part is called. -/
def dispositionField (name filename : Option String) : Bytes × Bytes :=
  (bytes "Content-Disposition",
    bytes "form-data" ++ (said "name" name ++ said "filename" filename))

theorem bytes_formData : bytes "form-data" = [102, 111, 114, 109, 45, 100, 97, 116, 97] := by
  decide +kernel

theorem bytes_name : bytes "name" = [110, 97, 109, 101] := by decide +kernel

theorem bytes_filename : bytes "filename" = [102, 105, 108, 101, 110, 97, 109, 101] := by
  decide +kernel

variable {name filename : Option String} {n f v : String}

theorem dispositionField_name (n : String) (filename : Option String) :
    (dispositionField (some n) filename).2 = bytes "form-data" ++ [59] ++
      32 :: (bytes "name" ++ 61 :: (quote (bytes n) ++ said "filename" filename)) := by
  simp only [dispositionField, said, List.append_assoc, List.cons_append, List.nil_append]

theorem attribute?_name (filename : Option String) :
    attribute? "name" (dispositionField (some n) filename).2 =
      (attributeValue? (quote (bytes n) ++ said "filename" filename)).bind Utf8.decode? := by
  rw [dispositionField_name]
  exact attribute?_eq _ (by rw [bytes_name]; decide) (by rw [bytes_name, bytes_formData]; decide)

/-- A name that is told is heard, and no other is taken for a word. -/
theorem attribute?_name_some_iff (hv : IsWord (bytes v))
    (hascii : ∀ c ∈ v.toList, 0 < c.toNat ∧ c.toNat < 128) (filename : Option String) :
    attribute? "name" (dispositionField (some n) filename).2 = some v ↔ n = v := by
  rw [attribute?_name]
  by_cases hn : EndsInBackslash n
  · rw [attributeValue?_backslash hn]
    constructor
    · intro h
      obtain ⟨bs, hbs, hdecode⟩ := Option.bind_eq_some_iff.1 h
      obtain ⟨s, -, rfl⟩ := Option.map_eq_some_iff.1 hbs
      -- what went on behind the closing quote has that quote in it
      have hquote := quote_mem_unescape (List.mem_append_right (escape (bytes n))
        (List.mem_cons_self (a := 34) (l := s)))
      rw [Utf8.eq_of_decode? hdecode hascii] at hquote
      exact absurd rfl (hv.isWordByte 34 hquote).2.2.1
    · rintro rfl
      have hslash := List.mem_of_getLast? (getLast?_bytes_iff.2 hn)
      exact absurd rfl (hv.isWordByte 92 hslash).2.2.2
  · rw [attributeValue?_quote hn, Option.bind_some, bytes, Utf8.decode?_encode, Option.some.injEq]

/-- Where only a file is named, the first mention of a name is the end of the word filename, which
is no place to start at. -/
theorem attribute?_name_none_iff (hv : IsWord (bytes v))
    (hascii : ∀ c ∈ v.toList, 0 < c.toNat ∧ c.toNat < 128) :
    attribute? "name" (dispositionField none (some f)).2 = some v ↔
      PassesFor (bytes "name") (bytes v) (bytes f) := by
  have hvalue : (dispositionField none (some f)).2 =
      bytes "form-data" ++ [59, 32, 102, 105, 108, 101] ++
        (110 :: [97, 109, 101] ++ 61 :: quote (bytes f)) := by
    simp only [dispositionField, said, bytes_filename, List.append_assoc, List.cons_append,
      List.nil_append]
  have hfirst : ¬ 110 :: [97, 109, 101] <:+: bytes "form-data" ++ [59, 32, 102, 105, 108, 101] := by
    rw [bytes_formData]
    decide
  have hpassed : ¬ IsPlace (110 :: [97, 109, 101])
      (bytes "form-data" ++ [59, 32, 102, 105, 108, 101]) := by
    rintro (hlast | hsuffix)
    · rw [bytes_formData] at hlast
      exact absurd (hlast 101 rfl) (by decide)
    · exact hfirst hsuffix.isInfix
  rw [attribute?_eq_some_iff hascii, bytes_name,
    attributeWithin_eq_some_iff (by decide) (Nat.lt_succ_self _), hvalue]
  simp only [isFirst_behind_iff (c := 110) (n := [97, 109, 101]) (by decide) hfirst hpassed,
    isFirst_quote_iff (c := 110) (n := [97, 109, 101]) (by decide) (by decide) (by decide)]
  constructor
  · rintro ⟨_, _, ⟨_, rfl, before, after, rfl, rfl, h⟩, hbehind⟩
    exact ⟨before, after, h, (valueBehind?_escape_iff hv).1 hbehind⟩
  · rintro ⟨before, after, h, hsupplies⟩
    exact ⟨_, _, ⟨_, rfl, before, after, rfl, rfl, h⟩, (valueBehind?_escape_iff hv).2 hsupplies⟩

theorem attribute?_name_none : attribute? "name" (dispositionField none none).2 = none :=
  attribute?_of_not_infix (by decide +kernel)

/-- The name of a file is heard unless it ends in a backslash. -/
theorem attribute?_filename (hname : ∀ n ∈ name, ¬ bytes "filename" <:+: bytes n) :
    attribute? "filename" (dispositionField name filename).2 =
      filename.filter fun f => ¬ EndsInBackslash f := by
  have hbefore : ¬ bytes "filename" <:+: bytes "form-data" ++ (said "name" name ++ [59]) := by
    cases name with
    | none =>
      rw [bytes_filename, bytes_formData]
      decide
    | some n =>
      have hquote : ¬ bytes "filename" <:+:
          (bytes "form-data" ++ 59 :: 32 :: (bytes "name" ++ [61])) ++
            (quote (bytes n) ++ [59]) := by
        refine not_infix_quote ?_ ?_ (hname n rfl) ?_ ?_ <;>
          rw [bytes_filename] <;> (try rw [bytes_formData, bytes_name]) <;> decide
      simpa [said] using hquote
  cases filename with
  | some f =>
    have hvalue : (dispositionField name (some f)).2 =
        (bytes "form-data" ++ (said "name" name ++ [59])) ++
          32 :: (bytes "filename" ++ 61 :: (quote (bytes f) ++ [])) := by
      simp only [dispositionField, said, List.append_assoc, List.cons_append, List.nil_append,
        List.append_nil]
    rw [hvalue, attribute?_eq _ (by rw [bytes_filename]; decide) hbefore]
    by_cases hf : EndsInBackslash f
    · rw [attributeValue?_backslash hf, Option.filter_some_neg (by simpa using hf)]
      rfl
    · rw [attributeValue?_quote hf, Option.filter_some_pos (by simpa using hf)]
      exact Utf8.decode?_encode f
  | none =>
    have hvalue : bytes "form-data" ++ (said "name" name ++ [59]) =
        (dispositionField name none).2 ++ [59] := by
      simp only [dispositionField, said, List.append_assoc, List.append_nil]
    rw [hvalue] at hbefore
    exact attribute?_of_not_infix fun hi => hbefore (hi.trans (List.prefix_append _ _).isInfix)

/-! ### Names on a line -/

/-- Text that can be sent in a field: it holds no control character but tabs. -/
def IsSendable (s : String) : Prop := ∀ c ∈ s.toList, isValueChar c = true

instance (s : String) : Decidable (IsSendable s) :=
  decidable_of_iff (s.toList.all isValueChar = true) List.all_eq_true

theorem isValueByte_iff {b : UInt8} {c : Char} (h : c.toNat = b.toNat) :
    isValueByte b = true ↔ isValueChar c = true := by
  have hlow : 32 ≤ b ↔ 32 ≤ b.toNat := UInt8.le_iff_toNat_le
  have htab : b = 9 ↔ b.toNat = 9 := UInt8.toNat_inj.symm
  have hdelete : b = 127 ↔ b.toNat = 127 := UInt8.toNat_inj.symm
  have hchar : c = '\t' ↔ c.toNat = 9 := Char.toNat_inj.symm
  simp only [isValueByte, isValueChar, Bool.or_eq_true, Bool.and_eq_true, decide_eq_true_eq, ne_eq,
    hlow, htab, hdelete, hchar, h]

theorem isValueByte_bytes_iff {s : String} :
    (∀ b ∈ bytes s, isValueByte b = true) ↔ IsSendable s := by
  have hhigh {n : Nat} (h : 128 ≤ n) : 32 ≤ n ∧ n ≠ 127 := by omega
  constructor
  · intro h c hc
    by_cases hlow : c.toNat < 128
    · have htoNat : (UInt8.ofNat c.toNat).toNat = c.toNat :=
        UInt8.toNat_ofNat_of_lt' (Nat.lt_trans hlow (by decide))
      exact (isValueByte_iff htoNat.symm).1 (h _ ((Utf8.mem_encode_iff hlow).2 hc))
    · simp [isValueChar, hhigh (Nat.le_of_not_lt hlow)]
  · intro h b hb
    rcases Utf8.exists_of_mem_encode hb with hb | ⟨c, hc, hcb⟩
    · have hlow : 32 ≤ b ↔ 32 ≤ b.toNat := UInt8.le_iff_toNat_le
      have hdelete : b = 127 ↔ b.toNat = 127 := UInt8.toNat_inj.symm
      simp [isValueByte, hlow, hdelete, hhigh hb]
    · exact (isValueByte_iff hcb).2 (h c hc)

theorem newline_notMem_bytes_iff {s : String} : (∀ b ∈ bytes s, b ≠ 10) ↔ '\n' ∉ s.toList := by
  have hnewline : 10 ∈ bytes s ↔ '\n' ∈ s.toList := Utf8.mem_encode_iff (c := '\n') (by decide)
  rw [← hnewline]
  exact ⟨fun h hm => h 10 hm rfl, fun h b hb hb10 => h (hb10 ▸ hb)⟩

section Forall

variable {P : UInt8 → Prop}

theorem forall_mem_escape_iff (hslash : P 92) {s : Bytes} :
    (∀ b ∈ escape s, P b) ↔ ∀ b ∈ s, P b := by
  induction s with
  | nil => rfl
  | cons b s ih =>
    by_cases hb : b = 34
    · subst hb
      rw [escape_quote, List.forall_mem_cons, List.forall_mem_cons, List.forall_mem_cons, ih,
        and_iff_right hslash]
    · rw [escape_cons hb, List.forall_mem_cons, List.forall_mem_cons, ih]

theorem forall_mem_said_iff (hplain : ∀ b, 32 ≤ b → b < 127 → P b) {key : String}
    (hkey : ∀ b ∈ bytes key, P b) {value : Option String} :
    (∀ b ∈ said key value, P b) ↔ ∀ s ∈ value, ∀ b ∈ bytes s, P b := by
  cases value with
  | none => exact ⟨fun _ => nofun, fun _ => nofun⟩
  | some v =>
    have hquote : P 34 := hplain 34 (by decide) (by decide)
    have hnil : ∀ b ∈ ([] : Bytes), P b := nofun
    simp only [said, quote, List.forall_mem_cons, List.forall_mem_append, Option.mem_some_iff,
      forall_eq', forall_mem_escape_iff (hplain 92 (by decide) (by decide)),
      and_iff_right (hplain 59 (by decide) (by decide)),
      and_iff_right (hplain 32 (by decide) (by decide)), and_iff_right hkey,
      and_iff_right (hplain 61 (by decide) (by decide)), and_iff_right hquote, and_iff_left hnil]

/-- What holds of plain bytes holds of a disposition if it holds of the names. -/
theorem forall_mem_disposition_iff (hplain : ∀ b, 32 ≤ b → b < 127 → P b) :
    (∀ b ∈ (dispositionField name filename).2, P b) ↔
      (∀ s ∈ name, ∀ b ∈ bytes s, P b) ∧ ∀ s ∈ filename, ∀ b ∈ bytes s, P b := by
  have hword {s : Bytes} (hs : s.all fun b => 32 ≤ b && b < 127) (b : UInt8) (hb : b ∈ s) :
      P b := by
    have hrange := List.all_eq_true.1 hs b hb
    rw [Bool.and_eq_true, decide_eq_true_eq, decide_eq_true_eq] at hrange
    exact hplain b hrange.1 hrange.2
  rw [dispositionField]
  dsimp only
  rw [List.forall_mem_append, List.forall_mem_append,
    forall_mem_said_iff hplain (hword (by rw [bytes_name]; decide)),
    forall_mem_said_iff hplain (hword (by rw [bytes_filename]; decide)),
    and_iff_right (hword (by rw [bytes_formData]; decide))]

end Forall

theorem getLast?_said {P : UInt8 → Prop} (hquote : P 34) {key : String} {value : Option String}
    {before : Bytes} (h : ∀ b ∈ before.getLast?, P b) :
    ∀ b ∈ (before ++ said key value).getLast?, P b := by
  cases value with
  | none =>
    rw [said, List.append_nil]
    exact h
  | some v =>
    have hlast : before ++ said key (some v) =
        before ++ (59 :: 32 :: (bytes key ++ 61 :: 34 :: escape (bytes v))) ++ [34] := by
      simp [said, quote]
    rw [hlast, List.getLast?_concat]
    rintro _ ⟨⟩
    exact hquote

/-- The value ends in a letter or in a quote. -/
theorem getLast?_disposition {P : UInt8 → Prop} (hletter : P 97) (hquote : P 34) :
    ∀ b ∈ (dispositionField name filename).2.getLast?, P b := by
  rw [dispositionField]
  dsimp only
  rw [← List.append_assoc]
  refine getLast?_said hquote (getLast?_said hquote ?_)
  rw [bytes_formData]
  rintro _ ⟨⟩
  exact hletter

theorem head?_disposition : ∀ b ∈ (dispositionField name filename).2.head?, isPad b = false := by
  rw [dispositionField, bytes_formData]
  rintro _ ⟨⟩
  decide

theorem isTokenByte_disposition :
    (dispositionField name filename).1 ≠ [] ∧
      ∀ b ∈ (dispositionField name filename).1, isTokenByte b = true := by
  dsimp only [dispositionField]
  decide +kernel

theorem isValueByte_disposition_iff :
    (∀ b ∈ (dispositionField name filename).2, isValueByte b = true) ↔
      (∀ s ∈ name, IsSendable s) ∧ ∀ s ∈ filename, IsSendable s := by
  have hplain (b : UInt8) (hlow : 32 ≤ b) (hhigh : b < 127) : isValueByte b = true := by
    have hne : b ≠ 127 := fun h => absurd (h ▸ hhigh) (by decide)
    simp [isValueByte, hlow, hne]
  simp only [forall_mem_disposition_iff hplain, isValueByte_bytes_iff]

theorem newline_notMem_disposition (hname : ∀ s ∈ name, '\n' ∉ s.toList)
    (hfilename : ∀ s ∈ filename, '\n' ∉ s.toList) : 10 ∉ (dispositionField name filename).2 := by
  have hplain (b : UInt8) (hlow : 32 ≤ b) (_ : b < 127) : b ≠ 10 := fun h =>
    absurd (h ▸ hlow) (by decide)
  have hall := (forall_mem_disposition_iff hplain).2
    ⟨fun s hs => newline_notMem_bytes_iff.2 (hname s hs),
      fun s hs => newline_notMem_bytes_iff.2 (hfilename s hs)⟩
  exact fun hmem => hall 10 hmem rfl

/-! ### Items -/

/-- An item of a form, with its name and the name of its file where it has them. -/
structure Item where
  name : Option String := none
  filename : Option String := none
  /-- Fields that do not tell how the item is called. -/
  others : List (Bytes × Bytes) := []
  content : Bytes

namespace Item

def part (x : Item) : Part := ⟨dispositionField x.name x.filename :: x.others, x.content⟩

/-- The item can be sent with that boundary. -/
structure Fits (boundary : String) (x : Item) : Prop where
  name : ∀ n ∈ x.name, IsSendable n
  filename : ∀ f ∈ x.filename, IsSendable f
  others : ∀ f ∈ x.others, IsField f ∧ isDispositionField f.1 = false
  length_others_lt : x.others.length < maxFields
  not_infix : ¬ delimiter boundary <:+: x.content

/-- The names of the item stand on one line, which has a control character. -/
structure IsGarbled (x : Item) : Prop where
  name : ∀ n ∈ x.name, '\n' ∉ n.toList
  filename : ∀ f ∈ x.filename, '\n' ∉ f.toList
  not_sendable : ¬ ((∀ n ∈ x.name, IsSendable n) ∧ ∀ f ∈ x.filename, IsSendable f)

/-- The item is called so, or has no name and that of its file passes for one. -/
def IsNamed (name : String) (x : Item) : Prop :=
  x.name = some name ∨
    x.name = none ∧ ∃ f ∈ x.filename, PassesFor (bytes "name") (bytes name) (bytes f)

/-- What is heard of the name of the file. -/
def heardFilename (x : Item) : Option String := x.filename.filter fun f => ¬ EndsInBackslash f

variable {boundary : String} {x : Item}

theorem Fits.part (h : x.Fits boundary) : x.part.Fits boundary where
  fields_ne_nil := List.cons_ne_nil _ _
  length_fields_le := h.length_others_lt
  isField := List.forall_mem_cons.2 ⟨
    { name_ne_nil := isTokenByte_disposition.1
      isTokenByte := isTokenByte_disposition.2
      isValueByte := isValueByte_disposition_iff.2 ⟨h.name, h.filename⟩
      not_isPad_head := head?_disposition
      not_isPad_last := getLast?_disposition (by decide) (by decide) },
    fun f hf => (h.others f hf).1⟩
  not_infix := h.not_infix

theorem IsGarbled.isBroken (h : x.IsGarbled) : IsBroken (dispositionField x.name x.filename) where
  name_ne_nil := isTokenByte_disposition.1
  isTokenByte := isTokenByte_disposition.2
  not_isPad_head := head?_disposition
  isValueByte_last := getLast?_disposition (by decide) (by decide)
  newline_notMem := newline_notMem_disposition h.name h.filename
  not_isValueByte := by
    by_contra hnone
    refine h.not_sendable (isValueByte_disposition_iff.1 fun b hb => ?_)
    by_contra hvalue
    exact hnone ⟨b, hb, Bool.eq_false_iff.2 hvalue⟩

/-- Only the first field tells how the item is called. -/
theorem disposition_part (h : x.Fits boundary) : x.part.disposition =
    ⟨attribute? "name" (dispositionField x.name x.filename).2,
      attribute? "filename" (dispositionField x.name x.filename).2⟩ := by
  have hnone : x.others.reverse.find? (fun f => isDispositionField f.1) = none :=
    List.find?_eq_none.2 fun f hf => by simp [(h.others f (List.mem_reverse.1 hf)).2]
  have hfind : x.part.fields.reverse.find? (fun f => isDispositionField f.1) =
      some (dispositionField x.name x.filename) := by
    rw [part, List.reverse_cons, List.find?_append, hnone, Option.none_or]
    exact List.find?_cons_of_pos (by dsimp only [dispositionField]; decide +kernel)
  rw [Part.disposition, Disposition.ofFields, hfind]

/-- An item is taken for one of that name where it is called so or passes for it. -/
theorem isCalled_part_iff (h : x.Fits boundary) {name : String} (hname : IsWord (bytes name))
    (hascii : ∀ c ∈ name.toList, 0 < c.toNat ∧ c.toNat < 128) :
    x.part.isCalled name = true ↔ x.IsNamed name := by
  rw [Part.isCalled, disposition_part h, beq_iff_eq, IsNamed]
  dsimp only
  cases hn : x.name with
  | some n => simp [attribute?_name_some_iff hname hascii]
  | none =>
    cases hf : x.filename with
    | some f => simp [attribute?_name_none_iff hname hascii]
    | none => simp [attribute?_name_none]

theorem filename_part (h : x.Fits boundary) {name : String}
    (hname : ¬ bytes "filename" <:+: bytes name) (hnamed : x.IsNamed name) :
    x.part.disposition.filename = x.heardFilename := by
  rw [disposition_part h]
  refine attribute?_filename fun n hn => ?_
  rcases hnamed with hsome | ⟨hnone, -⟩
  · rw [hsome] at hn
    cases hn
    exact hname
  · rw [hnone] at hn
    cases hn

end Item

end Mockup.Http.Multipart
