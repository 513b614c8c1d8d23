import Mockup.Http.MediaType

/-! The content type of a form states its boundary. Between quotes any boundary can stand, and one
that is a token without them. -/

namespace Mockup.Http.MediaType

/-- The characters of a boundary. -/
def isBoundaryChar (c : Char) : Bool := c.isAlphanum || "'()+_,-./:=? ".toList.contains c

/-- A valid boundary: up to seventy characters, of which the last is no space. -/
structure IsBoundary (boundary : String) : Prop where
  ne_nil : boundary.toList ≠ []
  length_le : boundary.toList.length ≤ 70
  isBoundaryChar : ∀ c ∈ boundary.toList, isBoundaryChar c = true
  not_space_last : boundary.toList.getLast? ≠ some ' '

/-- The content type of a form. -/
def formTypeWith (value : String) : String := "multipart/form-data; boundary=" ++ value

variable {boundary : String}

theorem isQuotedChar_of_isBoundaryChar {c : Char} (h : isBoundaryChar c = true) :
    (isQuotedChar c && c ≠ '"') = true := by
  have hvalue : c.val.toNat = c.toNat := rfl
  have hquote : c = '"' ↔ c.toNat = 34 := Char.toNat_inj.symm
  rw [isBoundaryChar, Bool.or_eq_true, List.contains_iff_mem] at h
  rcases h with h | h
  · delta Char.isAlphanum Char.isAlpha Char.isUpper Char.isLower Char.isDigit at h
    simp only [Bool.or_eq_true, decide_eq_true_eq, Bool.and_eq_true, UInt32.le_iff_toNat_le,
      Char.reduceVal, UInt32.reduceToNat, hvalue] at h
    simp only [isQuotedChar, Bool.and_eq_true, decide_eq_true_eq, ne_eq, hquote]
    omega
  · refine (List.all_eq_true (p := fun c => isQuotedChar c && c ≠ '"')).1 ?_ c h
    decide

theorem quotedValue?_append {s : List Char} (hne : s ≠ [])
    (h : ∀ c ∈ s, (isQuotedChar c && c ≠ '"') = true) :
    quotedValue? (s ++ ['"']) = some (s, []) := by
  obtain ⟨c, s, rfl⟩ := List.exists_cons_of_ne_nil hne
  obtain ⟨hc, hs⟩ := List.forall_mem_cons.1 h
  rw [Bool.and_eq_true] at hc
  have hafter : (s ++ ['"']).dropWhile (fun c => isQuotedChar c && c ≠ '"') = ['"'] := by
    rw [List.dropWhile_append_of_pos hs]
    rfl
  have hbefore : (s ++ ['"']).takeWhile (fun c => isQuotedChar c && c ≠ '"') = s := by
    rw [List.takeWhile_append_of_pos hs]
    exact List.append_nil s
  rw [List.cons_append, quotedValue?, hc.1, hafter, hbefore]
  rfl

theorem tokenValue?_token {s : List Char} (h : ∀ c ∈ s, isTokenChar c = true) :
    tokenValue? s = some (s, []) := by
  have hafter : (s ++ []).dropWhile isTokenChar = [] := List.dropWhile_append_of_pos h
  have hbefore : (s ++ []).takeWhile isTokenChar = s ++ [] := List.takeWhile_append_of_pos h
  rw [List.append_nil] at hafter hbefore
  rw [tokenValue?, hafter, hbefore]

/-- A token ends before the first character that may not stand in one. -/
theorem span_token {w : List Char} {c : Char} (h : w.all isTokenChar = true)
    (hc : isTokenChar c = false) (s : List Char) :
    (w ++ c :: s).takeWhile isTokenChar = w ∧ (w ++ c :: s).dropWhile isTokenChar = c :: s := by
  have hnot : ¬ isTokenChar c = true := by simp [hc]
  rw [List.takeWhile_append_of_pos (List.all_eq_true.1 h),
    List.dropWhile_append_of_pos (List.all_eq_true.1 h), List.takeWhile_cons_of_neg hnot,
    List.dropWhile_cons_of_neg hnot, List.append_nil]
  exact ⟨rfl, rfl⟩

theorem parameters?_single {value s : List Char} (h : value? value = some (s, [])) :
    parameters? (' ' :: ("boundary".toList ++ '=' :: value)) = some [("boundary", s)] := by
  obtain ⟨hname, hrest⟩ := span_token (w := "boundary".toList) (c := '=') (by decide +kernel)
    (by decide) value
  have hspaces : (' ' :: ("boundary".toList ++ '=' :: value)).dropWhile (· = ' ') =
      "boundary".toList ++ '=' :: value := rfl
  have hempty (fuel : Nat) : parametersWithin (fuel + 1) [] = some [] := rfl
  have hsmall : ("boundary".toList).map Char.toLower = "boundary".toList := by decide +kernel
  rw [parameters?, List.length_cons, parametersWithin, hspaces]
  split
  · rename_i heq
    cases heq
  · rw [hname, hrest]
    split
    · rename_i heq
      cases heq
      rw [if_neg (by decide), h]
      dsimp only [Option.bind_eq_bind, Option.bind_some]
      rw [List.length_append, hempty, hsmall]
      rfl
    · rename_i heq
      exact absurd rfl (heq _)

theorem toList_formTypeWith (value : String) :
    (formTypeWith value).toList = "multipart".toList ++ '/' :: ("form-data".toList ++
      ';' :: ' ' :: ("boundary".toList ++ '=' :: value.toList)) := by
  have hwords : "multipart/form-data; boundary=".toList = "multipart".toList ++ '/' ::
      ("form-data".toList ++ ';' :: ' ' :: ("boundary".toList ++ ['='])) := by
    decide +kernel
  refine String.toList_append.trans ?_
  rw [hwords]
  simp only [List.append_assoc, List.cons_append, List.nil_append]

theorem read?_formTypeWith {value : String} {s : List Char}
    (h : value? value.toList = some (s, [])) :
    read? (formTypeWith value).toList =
      some ("multipart".toList, "form-data".toList, [("boundary", s)]) := by
  obtain ⟨htype, hafter⟩ := span_token (w := "multipart".toList) (c := '/') (by decide +kernel)
    (by decide) ("form-data".toList ++ ';' :: ' ' :: ("boundary".toList ++ '=' :: value.toList))
  obtain ⟨hsubtype, hparameters⟩ := span_token (w := "form-data".toList) (c := ';')
    (by decide +kernel) (by decide) (' ' :: ("boundary".toList ++ '=' :: value.toList))
  have hsuffix : withoutSuffix "form-data".toList = "form-data".toList := by decide +kernel
  unfold read?
  rw [toList_formTypeWith, htype, hafter]
  split
  · rename_i heq
    cases heq
    rw [hsubtype, hparameters]
    split
    · rename_i heq
      cases heq
    · rename_i heq
      cases heq
      dsimp only
      rw [parameters?_single h, hsuffix, if_neg (by decide), if_neg (by decide)]
      rfl
    · rename_i heq
      exact absurd rfl (heq _)
  · rename_i heq
    exact absurd rfl (heq _)

/-- The value that follows the equals sign is the boundary. -/
theorem boundary?_formTypeWith {value : String} {s : List Char}
    (h : value? value.toList = some (s, [])) :
    boundary? (formTypeWith value) = some (String.ofList s) := by
  unfold boundary?
  rw [read?_formTypeWith h]
  rfl

theorem boundary?_quoted (h : IsBoundary boundary) :
    boundary? (formTypeWith ("\"" ++ boundary ++ "\"")) = some boundary := by
  have hvalue : value? ("\"" ++ boundary ++ "\"").toList = some (boundary.toList, []) := by
    have hquoted := quotedValue?_append h.ne_nil fun c hc =>
      isQuotedChar_of_isBoundaryChar (h.isBoundaryChar c hc)
    simpa [value?] using hquoted
  rw [boundary?_formTypeWith hvalue, String.ofList_toList]

theorem boundary?_token (h : ∀ c ∈ boundary.toList, isTokenChar c = true) :
    boundary? (formTypeWith boundary) = some boundary := by
  have hvalue : value? boundary.toList = some (boundary.toList, []) := by
    unfold value?
    split
    · rename_i heq
      exact absurd (h '"' (by rw [heq]; exact List.mem_cons_self)) (by decide)
    · exact tokenValue?_token h
  rw [boundary?_formTypeWith hvalue, String.ofList_toList]

end Mockup.Http.MediaType
