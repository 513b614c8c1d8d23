import Mathlib.Data.List.Forall2
import Mockup.Config.Schema
import Mockup.Proofs.Document
import Mockup.Proofs.Except

/-! What decoders take, and that they make the same of values that say the same. -/

namespace Mockup.Config

open Decoder

variable {α : Type} {decode : Decoder α} {d : Dialect}

/-- The decoder makes the same of values that say the same. -/
def Blind (decode : Decoder α) (d : Dialect) : Prop :=
  ∀ a b : Node, a.value.Alike b.value → ∀ x, decode d a = .ok x ↔ decode d b = .ok x

/-- The decoder takes neither a table nor an array with a table in front. -/
def Tableless (decode : Decoder α) (d : Dialect) : Prop :=
  ∀ n x, decode d n = .ok x → n.value.isTable = false ∧
    ∀ first rest, n.value = .array (first :: rest) → first.value.isTable = false

/-! ### Values without parts -/

/-- The decoder takes neither arrays nor tables, and looks at nothing but the value. -/
structure Plain (decode : Decoder α) (d : Dialect) : Prop where
  value : ∀ e e' v x, decode d ⟨e, v⟩ = .ok x ↔ decode d ⟨e', v⟩ = .ok x
  array : ∀ e ns x, decode d ⟨e, .array ns⟩ ≠ .ok x
  table : ∀ e es x, decode d ⟨e, .table es⟩ ≠ .ok x

namespace Plain

theorem blind (h : Plain decode d) : Blind decode d := by
  intro ⟨e, v⟩ ⟨e', w⟩ halike x
  cases halike with
  | refl => exact h.value e e' v x
  | array => exact iff_of_false (h.array _ _ _) (h.array _ _ _)
  | table => exact iff_of_false (h.table _ _ _) (h.table _ _ _)

theorem tableless (h : Plain decode d) : Tableless decode d := by
  intro ⟨e, v⟩ x hx
  refine ⟨?_, fun first rest hv => ?_⟩
  · cases v <;> first | rfl | exact absurd hx (h.table _ _ _)
  · cases hv
    exact absurd hx (h.array _ _ _)

protected theorem text (expected : String) : Plain (text expected) d where
  value _ _ v _ := by cases v <;> simp [text, mistyped]
  array := nofun
  table := nofun

protected theorem boolean : Plain boolean d where
  value _ _ v _ := by cases v <;> simp [boolean, mistyped]
  array := nofun
  table := nofun

protected theorem natural (bound : Nat) (expected : String) : Plain (natural bound expected) d where
  value _ _ v _ := by cases v <;> simp [natural, mistyped]; split <;> simp
  array := nofun
  table := nofun

protected theorem single : Plain single d where
  value _ _ v _ := by cases v <;> simp [single, mistyped]; split <;> simp
  array := nofun
  table := nofun

protected theorem address : Plain address d where
  value _ _ v _ := by cases v <;> simp [address, mistyped]; split <;> simp
  array := nofun
  table := nofun

protected theorem url : Plain url d where
  value _ _ v _ := by cases v <;> simp [url, mistyped]; split <;> simp
  array := nofun
  table := nofun

protected theorem optional (h : Plain decode d) : Plain (Decoder.optional decode) d where
  value e e' v x := by
    have hmap : (decode d ⟨e, v⟩).map some = .ok x ↔ (decode d ⟨e', v⟩).map some = .ok x := by
      simp only [Except.map_eq_ok_iff, h.value e e' v]
    cases v <;> first | exact Iff.rfl | exact hmap
  array e ns x hx := by
    obtain ⟨y, hy, -⟩ := Except.map_eq_ok_iff.1 hx
    exact h.array e ns y hy
  table e es x hx := by
    obtain ⟨y, hy, -⟩ := Except.map_eq_ok_iff.1 hx
    exact h.table e es y hy

end Plain

/-- The value of a name, if the name stands there as a text. -/
theorem variant_congr {variants : List (String × α)} {a b : Node} (ha : a.value.isString = true)
    (h : a.value.Alike b.value) (x : α) :
    variant variants d a = .ok x ↔ variant variants d b = .ok x := by
  obtain ⟨e, v⟩ := a
  obtain ⟨e', w⟩ := b
  cases h with
  | array => cases ha
  | table => cases ha
  | refl =>
    cases v with
    | string s =>
      simp only [variant]
      split <;> simp
    | _ => cases ha

/-! ### Lists of what is allowed -/

/-- Both nodes are the same text, or neither of them is a text. -/
def SameText (d : Dialect) (a b : Node) : Prop :=
  ∀ s, text "a string" d a = .ok s ↔ text "a string" d b = .ok s

theorem SameText.symm {a b : Node} (h : SameText d a b) : SameText d b a := fun s => (h s).symm

/-- Whether a star was found and what stands before it is the same for items that read the same. -/
theorem scanAllowed_congr {ns ms : List Node}
    (h : List.Forall₂ (SameText d) ns ms) {ss : List String} {r : Option (List Node)}
    (hscan : scanAllowed d ns = .ok (ss, r)) :
    ∃ r', scanAllowed d ms = .ok (ss, r') ∧ r.map List.length = r'.map List.length := by
  induction h generalizing ss r with
  | nil => exact ⟨r, hscan, rfl⟩
  | @cons a b ns ms hab hrest ih =>
    obtain ⟨s, hs, hscan⟩ := Except.bind_eq_ok_iff.1 hscan
    rw [scanAllowed, (hab s).1 hs]
    change ∃ r', (if s = "*" then _ else _) = _ ∧ _
    split at hscan
    · rename_i hstar
      cases hscan
      exact ⟨some ms, by rw [if_pos hstar]; rfl, congrArg some hrest.length_eq⟩
    · rename_i hstar
      obtain ⟨⟨ss', r₁⟩, hscan', he⟩ := Except.bind_eq_ok_iff.1 hscan
      cases he
      obtain ⟨r', hr', hlength⟩ := ih hscan'
      exact ⟨r', by rw [if_neg hstar, hr']; rfl, hlength⟩

theorem allowed_of_congr {a b : Node} {ns ms : List Node} (ha : a.value = .array ns)
    (hb : b.value = .array ms)
    (h : List.Forall₂ (SameText d) ns ms) {x : Allowed} (hx : allowed d a = .ok x) :
    allowed d b = .ok x := by
  simp only [allowed, ha] at hx
  obtain ⟨⟨ss, r⟩, hscan, hx⟩ := Except.bind_eq_ok_iff.1 hx
  obtain ⟨r', hscan', hlength⟩ := scanAllowed_congr h hscan
  simp only [allowed, hb, hscan']
  cases r with
  | none =>
    cases r' with
    | none => exact hx
    | some rest' => cases hlength
  | some rest =>
    cases r' with
    | none => cases hlength
    | some rest' =>
      have hempty : rest'.isEmpty = rest.isEmpty := by
        rw [Bool.eq_iff_iff, List.isEmpty_iff_length_eq_zero, List.isEmpty_iff_length_eq_zero,
          Option.some.inj hlength]
      change (if d = .json && !rest'.isEmpty then _ else _) = _
      change (if d = .json && !rest.isEmpty then _ else _) = _ at hx
      rw [hempty]
      split at hx
      · cases hx
      · rename_i hd
        rw [if_neg hd]
        exact hx

theorem allowed_blind : Blind allowed d := by
  intro ⟨e, v⟩ ⟨e', w⟩ halike x
  cases halike with
  | refl =>
    cases v with
    | array ns =>
      have hrefl : List.Forall₂ (SameText d) ns ns := List.forall₂_same.2 fun _ _ _ => Iff.rfl
      exact ⟨allowed_of_congr rfl rfl hrefl, allowed_of_congr rfl rfl hrefl⟩
    | _ => simp [allowed, mistyped]
  | @array ns ms h =>
    have htext : List.Forall₂ (SameText d) ns ms :=
      h.imp fun a b => (Plain.text "a string").blind a b
    exact ⟨allowed_of_congr rfl rfl htext,
      allowed_of_congr rfl rfl (htext.flip.imp fun _ _ => SameText.symm)⟩
  | table => exact iff_of_false nofun nofun

theorem allowed_tableless : Tableless allowed d := by
  intro ⟨e, v⟩ x hx
  refine ⟨?_, fun first rest hv => ?_⟩
  · cases v <;> first | rfl | cases hx
  · cases hv
    obtain ⟨⟨ss, r⟩, hscan, -⟩ := Except.bind_eq_ok_iff.1 hx
    obtain ⟨s, hs, -⟩ := Except.bind_eq_ok_iff.1 hscan
    exact ((Plain.text "a string").tableless first s hs).1

end Mockup.Config
