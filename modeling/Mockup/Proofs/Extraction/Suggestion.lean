import Mockup.Proofs.Extraction.Agreement
import Mockup.Proofs.Extraction.Cleaning

/-! Kinds suggested by words. The words have no blanks, so trimming keeps them: what is made a
source still suggests its kind, and nothing that counts before it. -/

namespace Mockup

/-- The kind comes first in the fixed order. -/
def Kind.Before (j k : Kind) : Prop := Kind.order.idxOf j < Kind.order.idxOf k

theorem Kind.forall_iff {P : Kind → Prop} :
    (∀ k, P k) ↔ P .logic ∧ P .markup ∧ P .stylesheet :=
  ⟨fun h => ⟨h .logic, h .markup, h .stylesheet⟩, fun ⟨h₁, h₂, h₃⟩ k => by cases k <;> assumption⟩

namespace Extraction

open Text Matcher

variable {raw s : List Char} {k : Kind} {t : Sources}

/-! ### What a text suggests -/

/-- The words that suggest the kind stand in the text. -/
def Suggests : Kind → List Char → Prop
  | .logic, s => "import".toList <:+: s ∧ "Component".toList <:+: s
  | .markup, s => "<div".toList <:+: s ∨ "<mat-".toList <:+: s
  | .stylesheet, s => '\x7b' ∈ s ∧ ':' ∈ s

instance : (k : Kind) → (s : List Char) → Decidable (Suggests k s)
  | .logic, _ | .stylesheet, _ => inferInstanceAs (Decidable (_ ∧ _))
  | .markup, _ => inferInstanceAs (Decidable (_ ∨ _))

/-- Of the kinds that the text suggests, this one is the first. -/
structure IsSuggested (k : Kind) (s : List Char) : Prop where
  suggests : Suggests k s
  first : ∀ j, j.Before k → ¬ Suggests j s

theorem isSuggested_iff : IsSuggested k s ↔ Suggests k s ∧ ∀ j, j.Before k → ¬ Suggests j s :=
  ⟨fun h => ⟨h.suggests, h.first⟩, fun h => ⟨h.1, h.2⟩⟩

theorem suggestedKind_eq_some_iff : suggestedKind s = some k ↔ IsSuggested k s := by
  have hkind : suggestedKind s = some k ↔
      (Suggests .logic s ∧ k = .logic) ∨ ¬ Suggests .logic s ∧
        ((Suggests .markup s ∧ k = .markup) ∨ ¬ Suggests .markup s ∧
          Suggests .stylesheet s ∧ k = .stylesheet) := by
    simp only [suggestedKind, Suggests, Bool.and_eq_true, Bool.or_eq_true, occurs_iff,
      decide_eq_true_eq]
    split_ifs <;> simp_all [eq_comm]
  rw [hkind, isSuggested_iff, Kind.forall_iff]
  cases k <;> simp [Kind.Before, Kind.order] <;> tauto

theorem suggestedKind_ne_none_iff : suggestedKind s ≠ none ↔ ∃ k, Suggests k s := by
  constructor
  · intro h
    obtain ⟨k, hk⟩ := Option.ne_none_iff_exists'.1 h
    exact ⟨k, (suggestedKind_eq_some_iff.1 hk).suggests⟩
  · rintro ⟨k, hk⟩ hnone
    simp only [suggestedKind, Bool.and_eq_true, Bool.or_eq_true, occurs_iff,
      decide_eq_true_eq] at hnone
    split_ifs at hnone with hlogic hmarkup hstyle
    cases k with
    | logic => exact hlogic hk
    | markup => exact hmarkup hk
    | stylesheet => exact hstyle hk

theorem suggests_trim_iff (k : Kind) : Suggests k (trim s) ↔ Suggests k s := by
  have hword (w : List Char) (hne : w ≠ []) (hw : ∀ c ∈ w, ¬ isBlank c) :
      w <:+: trim s ↔ w <:+: s := infix_trim_iff hne hw
  cases k with
  | logic =>
    exact and_congr (hword "import".toList (by decide) (by simp [isBlank]))
      (hword "Component".toList (by decide) (by simp [isBlank]))
  | markup =>
    exact or_congr (hword "<div".toList (by decide) (by simp [isBlank]))
      (hword "<mat-".toList (by decide) (by simp [isBlank]))
  | stylesheet => exact and_congr (mem_trim_iff (by decide)) (mem_trim_iff (by decide))

theorem suggestedKind_trim (s : List Char) : suggestedKind (trim s) = suggestedKind s := by
  ext k
  simp only [suggestedKind_eq_some_iff, isSuggested_iff, suggests_trim_iff]

theorem heuristic_eq_some_iff : heuristic raw = some t ↔
    ∃ k, IsSuggested k (trim (cleaned raw)) ∧ ({} : Sources).set k (trim (cleaned raw)) = t := by
  simp only [← suggestedKind_eq_some_iff, suggestedKind_trim]
  exact Option.map_eq_some_iff

theorem heuristic_ne_none_iff : heuristic raw ≠ none ↔ ∃ k, Suggests k (cleaned raw) := by
  rw [← suggestedKind_ne_none_iff, heuristic, Ne, Option.map_eq_none_iff]

theorem Suggests.ne_nil (h : Suggests k s) : s ≠ [] := by
  rintro rfl
  cases k <;> revert h <;> decide

/-! ### The source -/

/-- One source is filled, and its text is still of its kind. -/
structure KeepsKind (t : Sources) : Prop where
  exactly_one : ∃! k, t.get k ≠ []
  suggested : ∀ k, t.get k ≠ [] → IsSuggested k (t.get k)
  not_twoFences : ∀ k, ¬ TwoFences (t.get k)
  again : ∀ k, t.get k ≠ [] → ¬ fence <:+: t.get k → heuristic (t.get k) = some t

variable {x : List Char}

theorem get_single (k : Kind) (x : List Char) (j : Kind) :
    (({} : Sources).set k x).get j = if j = k then x else [] := by
  rw [Sources.get_set, Sources.get_empty]

theorem eq_of_get_single {j : Kind} (h : (({} : Sources).set k x).get j ≠ []) : j = k := by
  by_contra hjk
  exact h (by rw [get_single, if_neg hjk])

/-- A text that is trimmed, has no two fences and suggests a kind is kept as the source of that
kind, and where it has no fence at all it is found again. -/
theorem keepsKind_single (hk : IsSuggested k x) (htrim : trim x = x) (hfences : ¬ TwoFences x) :
    KeepsKind (({} : Sources).set k x) := by
  have hself : (({} : Sources).set k x).get k = x := by rw [get_single, if_pos rfl]
  have hne : (({} : Sources).set k x).get k ≠ [] := by
    rw [hself]
    exact hk.suggests.ne_nil
  refine ⟨⟨k, hne, fun j => eq_of_get_single⟩, fun j hj => ?_, fun j => ?_, fun j hj hfence => ?_⟩
  · obtain rfl := eq_of_get_single hj
    rwa [hself]
  · rw [get_single]
    split
    · exact hfences
    · rintro ⟨b, a, r, h⟩
      simp [fence] at h
  · obtain rfl := eq_of_get_single hj
    rw [hself] at hfence ⊢
    have hcleaned : trim (cleaned x) = x := by rw [cleaned_of_unfenced hfence, htrim]
    exact heuristic_eq_some_iff.2 ⟨j, by rwa [hcleaned], by rw [hcleaned]⟩

/-- Where the stage applies it fills one source, of the first kind that the source's own text
suggests, and no fence is closed in it. A text without a fence is taken as it is: the stage applies
to it exactly when it suggests a kind. -/
theorem heuristic_keeps_kind (raw : List Char) :
    (∀ t, heuristic raw = some t → KeepsKind t) ∧
      (¬ fence <:+: raw → (heuristic raw ≠ none ↔ ∃ k, Suggests k raw) ∧
        ∀ t, heuristic raw = some t → ∀ k, t.get k ≠ [] → t.get k = trim raw) := by
  refine ⟨fun t ht => ?_, fun h => ⟨?_, fun t ht k hk => ?_⟩⟩
  · obtain ⟨k, hk, rfl⟩ := heuristic_eq_some_iff.1 ht
    exact keepsKind_single hk (trim_trim _)
      fun h => not_twoFences_cleaned raw (h.of_infix (trim_isInfix _))
  · rw [heuristic_ne_none_iff, cleaned_of_unfenced h]
  · obtain ⟨j, -, rfl⟩ := heuristic_eq_some_iff.1 ht
    rw [get_single, if_pos (eq_of_get_single hk), cleaned_of_unfenced h]

/-- A word of one kind in a closed fence, between words of another. -/
def divided : List Char := "import ```<div``` Component".toList

theorem heuristic_keeps_kind_divided :
    heuristic divided = some ⟨"import  Component".toList, [], []⟩ ∧
      KeepsKind ⟨"import  Component".toList, [], []⟩ ∧
      ¬ fence <:+: "a:\x7b".toList ∧ heuristic "a:\x7b".toList ≠ none := by
  have hdivided : heuristic divided = some ⟨"import  Component".toList, [], []⟩ := by
    decide +kernel
  have hfree : ¬ fence <:+: "a:\x7b".toList := by decide
  exact ⟨hdivided, (heuristic_keeps_kind divided).1 _ hdivided, hfree,
    ((heuristic_keeps_kind _).2 hfree).1.2 ⟨.stylesheet, by decide⟩⟩

end Extraction

end Mockup
