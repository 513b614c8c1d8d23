import Mathlib.Data.List.TakeWhile
import Mockup.Http.Multipart
import Mockup.Proofs.Text.Occurrence
import Mockup.Proofs.Text.Utf8

/-! Forms that were written are read back. No delimiter reaches over the end of a part, since a line
end stands before it and none within it; so the content of a part is found byte for byte, whatever
else it looks like. -/

namespace Mockup.Http.Multipart

open Text

/-! ### Writing -/

/-- A field that can be written on a line. -/
structure IsField (f : Bytes × Bytes) : Prop where
  name_ne_nil : f.1 ≠ []
  isTokenByte : ∀ b ∈ f.1, isTokenByte b = true
  isValueByte : ∀ b ∈ f.2, isValueByte b = true
  not_isPad_head : ∀ b ∈ f.2.head?, isPad b = false
  not_isPad_last : ∀ b ∈ f.2.getLast?, isPad b = false

def line (f : Bytes × Bytes) : Bytes := f.1 ++ 58 :: 32 :: (f.2 ++ lineEnd)

def lines (fs : List (Bytes × Bytes)) : Bytes := fs.flatMap line

structure Part where
  fields : List (Bytes × Bytes)
  content : Bytes

namespace Part

def disposition (p : Part) : Disposition := .ofFields p.fields

def isCalled (name : String) (p : Part) : Bool := p.disposition.name == some name

/-- The part can be written with that boundary: its content does not hold the delimiter. -/
structure Fits (boundary : String) (p : Part) : Prop where
  fields_ne_nil : p.fields ≠ []
  length_fields_le : p.fields.length ≤ maxFields
  isField : ∀ f ∈ p.fields, IsField f
  not_infix : ¬ delimiter boundary <:+: p.content

def write (boundary : String) (p : Part) : Bytes :=
  delimiter boundary ++ (lineEnd ++ (lines p.fields ++ (lineEnd ++ (p.content ++ lineEnd))))

end Part

/-- Parts, the delimiter that closes them, and what may follow it. -/
def form (boundary : String) (ps : List Part) (epilogue : Bytes) : Bytes :=
  ps.flatMap (Part.write boundary) ++ (delimiter boundary ++ 45 :: 45 :: epilogue)

/-! ### Fields -/

variable {f : Bytes × Bytes} {fs : List (Bytes × Bytes)}

theorem lines_cons (f : Bytes × Bytes) (fs : List (Bytes × Bytes)) :
    lines (f :: fs) = line f ++ lines fs := List.flatMap_cons

theorem afterLineEnd?_token {b : UInt8} (h : isTokenByte b = true) (s : Bytes) :
    afterLineEnd? (b :: s) = none := by
  unfold afterLineEnd?
  split
  · rename_i heq
    cases (List.cons.inj heq).1
    cases h
  · rename_i heq
    cases (List.cons.inj heq).1
    cases h
  · rfl

theorem afterLineEnd?_line (hne : f.1 ≠ []) (h : ∀ b ∈ f.1, isTokenByte b = true) (s : Bytes) :
    afterLineEnd? (f.1 ++ s) = none := by
  obtain ⟨b, bs, hf⟩ := List.exists_cons_of_ne_nil hne
  rw [hf]
  exact afterLineEnd?_token (h b (hf ▸ List.mem_cons_self)) _

theorem trimEnd_of_last {s : Bytes} (h : ∀ b ∈ s.getLast?, isPad b = false) : trimEnd s = s := by
  unfold trimEnd
  rw [← List.head?_reverse] at h
  cases hs : s.reverse with
  | nil => rw [List.reverse_eq_nil_iff.1 hs]; rfl
  | cons b bs =>
    rw [hs] at h
    rw [List.dropWhile_cons_of_neg (by simp [h b rfl]), ← hs, List.reverse_reverse]

theorem field?_line (h : IsField f) (r : Bytes) : field? (line f ++ r) = some (f, r) := by
  obtain ⟨name, value⟩ := f
  have hline : line (name, value) ++ r = name ++ 58 :: 32 :: (value ++ 13 :: 10 :: r) := by
    simp [line, lineEnd]
  have hname := h.isTokenByte
  have hvalue := h.isValueByte
  have hpad : (32 :: (value ++ 13 :: 10 :: r)).dropWhile isPad = value ++ 13 :: 10 :: r := by
    rw [List.dropWhile_cons_of_pos (by decide)]
    cases value with
    | nil => rfl
    | cons b bs => exact List.dropWhile_cons_of_neg (by simp [h.not_isPad_head b rfl])
  unfold field?
  dsimp only
  rw [hline, List.takeWhile_append_of_pos hname, List.dropWhile_append_of_pos hname,
    List.takeWhile_cons_of_neg (by decide), List.dropWhile_cons_of_neg (by decide), List.append_nil]
  split
  · rename_i heq
    cases heq
    rw [if_neg (by simpa using h.name_ne_nil), hpad, List.takeWhile_append_of_pos hvalue,
      List.dropWhile_append_of_pos hvalue, List.takeWhile_cons_of_neg (by decide),
      List.dropWhile_cons_of_neg (by decide), List.append_nil, trimEnd_of_last h.not_isPad_last]
    rfl
  · rename_i hcolon
    exact absurd rfl (hcolon _)

theorem fields?_lines {count : Nat} (hcount : fs.length ≤ count) (h : ∀ f ∈ fs, IsField f)
    (r : Bytes) : fields? count (lines fs ++ (lineEnd ++ r)) = some fs := by
  induction fs generalizing count with
  | nil => cases count <;> rfl
  | cons f fs ih =>
    obtain ⟨hf, hfs⟩ := List.forall_mem_cons.1 h
    cases count with
    | zero => cases hcount
    | succ count =>
      have hlines : lines (f :: fs) ++ (lineEnd ++ r) = line f ++ (lines fs ++ (lineEnd ++ r)) := by
        rw [lines, List.flatMap_cons, List.append_assoc]
        rfl
      have hstart (s : Bytes) : afterLineEnd? (line f ++ s) = none := by
        rw [line, List.append_assoc]
        exact afterLineEnd?_line hf.name_ne_nil hf.isTokenByte _
      rw [hlines, fields?, hstart, field?_line hf]
      dsimp only [Option.bind_eq_bind, Option.bind_some]
      rw [ih (Nat.le_of_succ_le_succ hcount) hfs]
      rfl

/-- The bytes of a line before its end. -/
theorem exists_line (h : IsField f) : ∃ w, line f = w ++ lineEnd ∧ 13 ∉ w := by
  refine ⟨f.1 ++ 58 :: 32 :: f.2, by simp [line], fun hmem => ?_⟩
  simp only [List.mem_append, List.mem_cons] at hmem
  rcases hmem with hmem | hmem | hmem | hmem
  · exact absurd (h.isTokenByte _ hmem) (by decide)
  · exact absurd hmem (by decide)
  · exact absurd hmem (by decide)
  · exact absurd (h.isValueByte _ hmem) (by decide)

theorem exists_lines_head (hne : fs ≠ []) (h : ∀ f ∈ fs, IsField f) (r : Bytes) :
    ∃ b s, lines fs ++ r = b :: s ∧ b ≠ 13 := by
  obtain ⟨⟨name, value⟩, fs, rfl⟩ := List.exists_cons_of_ne_nil hne
  have hf := h _ List.mem_cons_self
  obtain ⟨b, bs, rfl⟩ := List.exists_cons_of_ne_nil hf.name_ne_nil
  refine ⟨b, _, rfl, ?_⟩
  rintro rfl
  exact absurd (hf.isTokenByte 13 List.mem_cons_self) (by decide)

/-- The first empty line is the one behind the fields. -/
theorem exists_cut_lines (hne : fs ≠ []) (h : ∀ f ∈ fs, IsField f) (r : Bytes) :
    ∃ u, cut (lineEnd ++ lineEnd) (lines fs ++ (lineEnd ++ r)) = some (u, r) ∧
      u ++ lineEnd = lines fs := by
  induction fs with
  | nil => exact absurd rfl hne
  | cons f fs ih =>
    obtain ⟨hf, hfs⟩ := List.forall_mem_cons.1 h
    obtain ⟨w, hw, hreturn⟩ := exists_line hf
    have hlines : lines (f :: fs) = w ++ (lineEnd ++ lines fs) := by
      rw [← List.append_assoc, ← hw]
      rfl
    have hskip (s : Bytes) : cut (lineEnd ++ lineEnd) (w ++ s) =
        (cut (lineEnd ++ lineEnd) s).map fun p => (w ++ p.1, p.2) := cut_append_of_notMem hreturn s
    rw [hlines, List.append_assoc, hskip]
    by_cases hnil : fs = []
    · subst hnil
      refine ⟨w, ?_, rfl⟩
      rw [lines, List.flatMap_nil, List.append_nil, ← List.append_assoc, cut_append]
      exact congrArg (fun u => some (u, r)) (List.append_nil w)
    · obtain ⟨u, hcut, hu⟩ := ih hnil hfs
      obtain ⟨b, s, hs, hb⟩ := exists_lines_head hnil hfs (lineEnd ++ r)
      refine ⟨w ++ (lineEnd ++ u), ?_, ?_⟩
      · rw [List.append_assoc, hs]
        rw [hs] at hcut
        have hfirst : ¬ lineEnd ++ lineEnd <+: 13 :: 10 :: b :: s := fun hp => by
          simp [lineEnd] at hp
          exact hb hp.1.symm
        have hsecond : ¬ lineEnd ++ lineEnd <+: 10 :: b :: s := fun hp => by
          simp [lineEnd] at hp
        change Option.map _ (cut _ (13 :: 10 :: b :: s)) = _
        rw [cut_cons hfirst, cut_cons hsecond, hcut]
        rfl
      · rw [List.append_assoc, List.append_assoc, hu]

/-- Behind a delimiter and its line end stand fields, up to the first empty line. -/
theorem head?_lineEnd (boundary : String) (s : Bytes) :
    head? boundary (delimiter boundary ++ (lineEnd ++ s)) =
      (cut (lineEnd ++ lineEnd) s).bind fun (fields, rest) =>
        (fields? maxFields (fields ++ lineEnd ++ lineEnd)).map fun fs =>
          .part (.ofFields fs) rest := by
  have hpad : (lineEnd ++ s).dropWhile isPad = lineEnd ++ s :=
    List.dropWhile_cons_of_neg (by decide)
  unfold head?
  rw [past?_append]
  dsimp only [Option.bind_eq_bind, Option.bind_some]
  split
  · rename_i heq
    cases heq
  · rw [hpad, past?_append]
    dsimp only [Option.bind_some]
    refine congrArg (cut (lineEnd ++ lineEnd) s).bind (funext fun (fields, rest) => ?_)
    exact (Option.map_eq_bind ..).symm
  · rename_i hlong
    exact absurd rfl (hlong _ _ _)

/-! ### Broken fields -/

/-- A field on one line that no reader takes, for a control character within its value. -/
structure IsBroken (f : Bytes × Bytes) : Prop where
  name_ne_nil : f.1 ≠ []
  isTokenByte : ∀ b ∈ f.1, isTokenByte b = true
  not_isPad_head : ∀ b ∈ f.2.head?, isPad b = false
  isValueByte_last : ∀ b ∈ f.2.getLast?, isValueByte b = true
  newline_notMem : 10 ∉ f.2
  not_isValueByte : ∃ b ∈ f.2, isValueByte b = false

theorem afterLineEnd?_append {s : Bytes} (hnewline : 10 ∉ s) (hlast : s.getLast? ≠ some 13)
    (hne : s ≠ []) (r : Bytes) : afterLineEnd? (s ++ r) = none := by
  obtain ⟨b, s, rfl⟩ := List.exists_cons_of_ne_nil hne
  unfold afterLineEnd?
  split
  · rename_i heq
    cases s with
    | nil => exact absurd (congrArg some (List.cons.inj heq).1) hlast
    | cons c s =>
      cases heq
      simp at hnewline
  · rename_i heq
    cases heq
    simp at hnewline
  · rfl

theorem field?_broken (h : IsBroken f) (r : Bytes) :
    field? (f.1 ++ 58 :: 32 :: (f.2 ++ r)) = none := by
  obtain ⟨b, hb, hcontrol⟩ := h.not_isValueByte
  have hne : f.2.dropWhile isValueByte ≠ [] := fun hnil => by
    rw [List.dropWhile_eq_nil_iff.1 hnil b hb] at hcontrol
    cases hcontrol
  obtain ⟨w, hw⟩ := List.dropWhile_suffix (l := f.2) isValueByte
  have hlast : (f.2.dropWhile isValueByte).getLast? ≠ some 13 := fun hlast => by
    rw [← List.getLast?_append_of_ne_nil w hne, hw] at hlast
    exact absurd (h.isValueByte_last 13 hlast) (by decide)
  have hend := afterLineEnd?_append (fun hm => h.newline_notMem (hw ▸ List.mem_append_right w hm))
    hlast hne r
  have hvalue : (f.2 ++ r).dropWhile isValueByte = f.2.dropWhile isValueByte ++ r := by
    rw [List.dropWhile_append, if_neg (by simpa using hne)]
  have hpad : (32 :: (f.2 ++ r)).dropWhile isPad = f.2 ++ r := by
    rw [List.dropWhile_cons_of_pos (by decide)]
    cases hf : f.2 with
    | nil => simp [hf] at hb
    | cons c s => exact List.dropWhile_cons_of_neg (by simp [h.not_isPad_head c (by simp [hf])])
  unfold field?
  dsimp only
  rw [List.dropWhile_append_of_pos h.isTokenByte, List.dropWhile_cons_of_neg (by decide)]
  split
  · rename_i heq
    cases heq
    rw [hpad, hvalue, hend]
    exact ite_self none
  · rfl

theorem fields?_broken (h : IsBroken f) (count : Nat) (r : Bytes) :
    fields? count (f.1 ++ 58 :: 32 :: (f.2 ++ r)) = none := by
  cases count with
  | zero => rw [fields?, afterLineEnd?_line h.name_ne_nil h.isTokenByte]
  | succ count =>
    rw [fields?, afterLineEnd?_line h.name_ne_nil h.isTokenByte, field?_broken h]
    rfl

theorem newline_notMem_broken (h : IsBroken f) : 10 ∉ f.1 ++ 58 :: 32 :: (f.2 ++ [13]) := by
  intro hmem
  simp only [List.mem_append, List.mem_cons, List.not_mem_nil, or_false] at hmem
  rcases hmem with hmem | hmem | hmem | hmem | hmem
  · exact absurd (h.isTokenByte _ hmem) (by decide)
  · exact absurd hmem (by decide)
  · exact absurd hmem (by decide)
  · exact h.newline_notMem hmem
  · exact absurd hmem (by decide)

/-- The empty line stands behind the whole of the first line. -/
theorem exists_of_cut_newline {w r u rest : Bytes} (hw : 10 ∉ w)
    (h : cut (lineEnd ++ lineEnd) (w ++ 10 :: r) = some (u, rest)) :
    ∃ t, u ++ lineEnd = w ++ 10 :: t := by
  obtain ⟨w', t, hu, hw'⟩ := List.eq_append_cons_of_mem
    (show (10 : UInt8) ∈ u ++ lineEnd from List.mem_append_right _ (by decide))
  have hsplit : w ++ 10 :: r = w' ++ 10 :: (t ++ (lineEnd ++ rest)) := by
    rw [eq_append_of_cut h, List.append_assoc, ← List.append_assoc, hu, List.append_assoc,
      List.cons_append]
  obtain ⟨rfl, -⟩ := append_cons_inj hw hw' hsplit
  exact ⟨t, hu⟩

theorem head?_broken {boundary : String} (h : IsBroken f) (r : Bytes) :
    head? boundary (delimiter boundary ++ (lineEnd ++ (line f ++ r))) = none := by
  have hline : line f ++ r = (f.1 ++ 58 :: 32 :: (f.2 ++ [13])) ++ 10 :: r := by
    simp [line, lineEnd]
  rw [head?_lineEnd, hline]
  cases hcut : cut (lineEnd ++ lineEnd) ((f.1 ++ 58 :: 32 :: (f.2 ++ [13])) ++ 10 :: r) with
  | none => rfl
  | some x =>
    obtain ⟨u, rest⟩ := x
    obtain ⟨t, hu⟩ := exists_of_cut_newline (newline_notMem_broken h) hcut
    have hfields : u ++ lineEnd ++ lineEnd =
        f.1 ++ 58 :: 32 :: (f.2 ++ 13 :: 10 :: (t ++ lineEnd)) := by
      rw [hu]
      simp
    rw [Option.bind_some]
    dsimp only
    rw [hfields, fields?_broken h]
    rfl

/-! ### Parts -/

variable {boundary name : String} {p : Part} {ps : List Part}

theorem head?_fields (hne : fs ≠ []) (hcount : fs.length ≤ maxFields) (h : ∀ f ∈ fs, IsField f)
    (r : Bytes) :
    head? boundary (delimiter boundary ++ (lineEnd ++ (lines fs ++ (lineEnd ++ r)))) =
      some (.part (.ofFields fs) r) := by
  obtain ⟨u, hcut, hu⟩ := exists_cut_lines hne h r
  have hfields : fields? maxFields (u ++ lineEnd ++ lineEnd) = some fs := by
    rw [hu]
    exact fields?_lines hcount h []
  rw [head?_lineEnd, hcut, Option.bind_some]
  dsimp only
  rw [hfields]
  rfl

theorem head?_last (boundary : String) (epilogue : Bytes) :
    head? boundary (delimiter boundary ++ 45 :: 45 :: epilogue) = some .last := by
  unfold head?
  rw [past?_append]
  rfl

theorem content?_write (hb : 13 ∉ delimiter boundary) {content : Bytes}
    (h : ¬ delimiter boundary <:+: content) (r : Bytes) :
    content? boundary (content ++ (lineEnd ++ (delimiter boundary ++ r))) =
      some (content, delimiter boundary ++ r) := by
  have hcut : cut (lineEnd ++ delimiter boundary)
      (content ++ (lineEnd ++ delimiter boundary ++ r)) = some (content, r) := by
    refine cut_append_self ?_ (fun hi => h (List.IsInfix.trans ?_ hi)) r
    · exact fun hmem => (List.mem_cons.1 hmem).elim (by decide) hb
    · exact (List.suffix_append lineEnd _).isInfix
  rw [List.append_assoc] at hcut
  rw [content?, hcut]
  rfl

/-! ### Forms -/

variable {epilogue : Bytes}

theorem form_cons (boundary : String) (p : Part) (ps : List Part) (epilogue : Bytes) :
    form boundary (p :: ps) epilogue = delimiter boundary ++ (lineEnd ++ (lines p.fields ++
      (lineEnd ++ (p.content ++ (lineEnd ++ form boundary ps epilogue))))) := by
  simp only [form, Part.write, List.flatMap_cons, List.append_assoc]

/-- A form starts with a delimiter. -/
theorem exists_form (boundary : String) (ps : List Part) (epilogue : Bytes) :
    ∃ r, form boundary ps epilogue = delimiter boundary ++ r := by
  cases ps with
  | nil => exact ⟨_, rfl⟩
  | cons p ps => exact ⟨_, form_cons boundary p ps epilogue⟩

theorem length_le_form (boundary : String) (ps : List Part) (epilogue : Bytes) :
    ps.length ≤ (form boundary ps epilogue).length := by
  induction ps with
  | nil => exact Nat.zero_le _
  | cons p ps ih =>
    rw [form_cons]
    simp only [List.length_append, List.length_cons, lineEnd]
    omega

theorem length_content_le_form (boundary : String) (epilogue : Bytes) (h : p ∈ ps) :
    p.content.length ≤ (form boundary ps epilogue).length := by
  induction ps with
  | nil => cases h
  | cons q ps ih =>
    rw [form_cons]
    simp only [List.length_append]
    rcases List.mem_cons.1 h with rfl | h
    · omega
    · have := ih h
      omega

/-- Induction over the parts: one that is not wanted is passed over, up to the next delimiter. -/
theorem partWithin_append (hb : 13 ∉ delimiter boundary)
    (h : ∀ p ∈ ps, p.Fits boundary ∧ p.isCalled name = false) (after : List Part) (fuel : Nat) :
    partWithin boundary name (fuel + ps.length) (form boundary (ps ++ after) epilogue) =
      partWithin boundary name fuel (form boundary after epilogue) := by
  induction ps with
  | nil => rfl
  | cons p ps ih =>
    obtain ⟨⟨hp, hcalled⟩, hps⟩ := List.forall_mem_cons.1 h
    obtain ⟨r, hr⟩ := exists_form boundary (ps ++ after) epilogue
    have hcontent := content?_write hb hp.not_infix r
    rw [← hr] at hcontent
    rw [List.length_cons, ← Nat.add_assoc, partWithin, List.cons_append, form_cons,
      head?_fields hp.fields_ne_nil hp.length_fields_le hp.isField]
    dsimp only
    rw [hcontent]
    dsimp only
    exact (if_neg (Bool.eq_false_iff.1 hcalled)).trans (ih hps)

/-- A form is read from its start: no delimiter stands before the first. -/
theorem exists_part_form (boundary name : String) (ps : List Part) (epilogue : Bytes) :
    ∃ fuel, part boundary name (form boundary ps epilogue) =
      partWithin boundary name (fuel + 1 + ps.length) (form boundary ps epilogue) := by
  have hlength := length_le_form boundary ps epilogue
  obtain ⟨r, hr⟩ := exists_form boundary ps epilogue
  refine ⟨(form boundary ps epilogue).length - ps.length, ?_⟩
  rw [part, hr, cut_append]
  dsimp only
  rw [← hr]
  congr 1
  omega

variable {before after : List Part}

/-- What is read behind parts that are not wanted. -/
theorem exists_part_append (hb : 13 ∉ delimiter boundary)
    (h : ∀ p ∈ before, p.Fits boundary ∧ p.isCalled name = false) (after : List Part)
    (epilogue : Bytes) :
    ∃ fuel, part boundary name (form boundary (before ++ after) epilogue) =
      partWithin boundary name (fuel + 1) (form boundary after epilogue) := by
  obtain ⟨fuel, hfuel⟩ := exists_part_form boundary name (before ++ after) epilogue
  refine ⟨fuel + after.length, ?_⟩
  rw [hfuel, ← partWithin_append hb h after (fuel + after.length + 1), List.length_append]
  congr 1
  omega

/-- The first part of a name is read back with the content that it was given, whatever stands before
and after it. -/
theorem part_of_called (hb : 13 ∉ delimiter boundary)
    (h : ∀ p ∈ before, p.Fits boundary ∧ p.isCalled name = false) (hp : p.Fits boundary)
    (hcalled : p.isCalled name = true) :
    part boundary name (form boundary (before ++ p :: after) epilogue) =
      .ok (p.disposition.filename, p.content) := by
  obtain ⟨fuel, hpart⟩ := exists_part_append hb h (p :: after) epilogue
  obtain ⟨r, hr⟩ := exists_form boundary after epilogue
  have hcontent := content?_write hb hp.not_infix r
  rw [← hr] at hcontent
  rw [hpart, partWithin, form_cons, head?_fields hp.fields_ne_nil hp.length_fields_le hp.isField]
  dsimp only
  rw [hcontent]
  exact if_pos hcalled

theorem part_of_none_called (hb : 13 ∉ delimiter boundary)
    (h : ∀ p ∈ ps, p.Fits boundary ∧ p.isCalled name = false) :
    part boundary name (form boundary ps epilogue) = .error .absent := by
  obtain ⟨fuel, hpart⟩ := exists_part_append hb h [] epilogue
  rw [List.append_nil] at hpart
  rw [hpart, partWithin, form, List.flatMap_nil, List.nil_append, head?_last]

/-- A part whose first field is broken is the end of what is read. -/
theorem part_of_broken (hb : 13 ∉ delimiter boundary)
    (h : ∀ p ∈ before, p.Fits boundary ∧ p.isCalled name = false) (hp : f ∈ p.fields.head?)
    (hf : IsBroken f) :
    part boundary name (form boundary (before ++ p :: after) epilogue) = .error .malformed := by
  obtain ⟨fuel, hpart⟩ := exists_part_append hb h (p :: after) epilogue
  obtain ⟨fs, hfields⟩ := List.head?_eq_some_iff.1 hp
  rw [hpart, partWithin, form_cons, hfields, lines_cons, List.append_assoc, head?_broken hf]

end Mockup.Http.Multipart
