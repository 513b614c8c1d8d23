import Mockup.Extraction
import Mockup.Proofs.Text.Scan
import Mockup.Proofs.Text.Trim

/-! The chain of strategies, and what holds of everything that it finds. The first strategy that
applies decides. Every source is trimmed, and a source taken from a block holds no fence. -/

namespace Mockup

namespace Sources

/-- Every source has the property. -/
def All (P : List Char → Prop) (s : Sources) : Prop := ∀ k, P (s.get k)

variable {P : List Char → Prop} {s : Sources} {t : List Char}

theorem get_empty (k : Kind) : ({} : Sources).get k = [] := by cases k <;> rfl

theorem All.empty (h : P []) : ({} : Sources).All P := by
  intro k
  rw [get_empty]
  exact h

theorem All.set (hs : s.All P) (ht : P t) (k : Kind) : (s.set k t).All P := by
  intro j
  rw [get_set]
  split
  · exact ht
  · exact hs j

theorem All.of_bodies (b : Kind → Option (List Char)) (h₀ : P []) (h : ∀ k t, b k = some t → P t) :
    Sources.All P ⟨(b .logic).getD [], (b .markup).getD [], (b .stylesheet).getD []⟩ := by
  have hb : ∀ k, P ((b k).getD []) := by
    intro k
    cases hk : b k with
    | none => exact h₀
    | some t => exact h k t hk
  intro k
  cases k <;> exact hb _

end Sources

namespace Extraction

open Text Matcher

variable {raw : List Char} {s : Strategy} {t : Sources}

/-! ### The first strategy that applies -/

theorem apply_of_find (h : find raw = some (s, t)) : s.apply raw = some t := by
  obtain ⟨s', -, h⟩ := List.exists_of_findSome?_eq_some h
  obtain ⟨t', h, he⟩ := Option.map_eq_some_iff.1 h
  cases he
  exact h

theorem find_of_tagged (h : tagged raw = some t) : find raw = some (.tagged, t) := by
  simp [find, Strategy.chain, Strategy.apply, h]

theorem find_of_positional (h₁ : tagged raw = none) (h₂ : positional raw = some t) :
    find raw = some (.positional, t) := by
  simp [find, Strategy.chain, Strategy.apply, h₁, h₂]

theorem find_of_markers (h₁ : tagged raw = none) (h₂ : positional raw = none)
    (h₃ : markers raw = some t) : find raw = some (.markers, t) := by
  simp [find, Strategy.chain, Strategy.apply, h₁, h₂, h₃]

theorem find_of_no_markers (h₁ : tagged raw = none) (h₂ : positional raw = none)
    (h₃ : markers raw = none) : find raw = (heuristic raw).map (.heuristic, ·) := by
  simp [find, Strategy.chain, Strategy.apply, h₁, h₂, h₃]

theorem strategy_eq (h : find raw = some (s, t)) : strategy raw = some s := by rw [strategy, h]; rfl

theorem sources_eq (h : find raw = some (s, t)) : sources raw = t := by rw [sources, h]; rfl

theorem apply_of_strategy (h : strategy raw = some s) : ∃ t, s.apply raw = some t := by
  obtain ⟨⟨s', t⟩, hfind, he⟩ := Option.map_eq_some_iff.1 h
  cases he
  exact ⟨t, apply_of_find hfind⟩

/-- The reported strategy gives the sources. -/
theorem apply_sources (h : strategy raw = some s) : s.apply raw = some (sources raw) := by
  obtain ⟨x, hfind, rfl⟩ := Option.map_eq_some_iff.1 h
  rw [sources_eq hfind]
  exact apply_of_find hfind

/-! ### The strategies that read blocks -/

theorem tagged_of_body {k : Kind} (h : labelledBody raw k ≠ none) :
    ∃ t, tagged raw = some t ∧ ∀ j, t.get j = (labelledBody raw j).getD [] := by
  have hany : Kind.order.any (fun j => (labelledBody raw j).isSome) = true := by
    refine List.any_eq_true.2 ⟨k, ?_, Option.isSome_iff_ne_none.2 h⟩
    cases k <;> decide
  refine ⟨_, if_pos hany, fun j => ?_⟩
  cases j <;> rfl

theorem tagged_of_none (h : ∀ k, labelledBody raw k = none) : tagged raw = none := by
  simp [tagged, Kind.order, h]

theorem tagged_ne_none_iff : tagged raw ≠ none ↔ ∃ k, labelledBody raw k ≠ none := by
  constructor
  · intro h
    by_contra hnone
    exact h (tagged_of_none fun k => by simpa using not_exists.1 hnone k)
  · rintro ⟨k, hk⟩
    obtain ⟨t, ht, -⟩ := tagged_of_body hk
    simp [ht]

theorem positional_of_nil (h : anyBlock.findAll raw = []) : positional raw = none := by
  rw [positional, h]
  rfl

/-- The first three of the bodies found are the sources, and the others do not count. -/
theorem positional_of_ne_nil (h : anyBlock.findAll raw ≠ []) :
    ∃ t, positional raw = some t ∧
      ∀ k, t.get k = (((anyBlock.findAll raw)[Kind.order.idxOf k]?).map trim).getD [] := by
  unfold positional
  match anyBlock.findAll raw, h with
  | [a], _ => exact ⟨_, rfl, fun k => by cases k <;> rfl⟩
  | [a, b], _ => exact ⟨_, rfl, fun k => by cases k <;> rfl⟩
  | a :: b :: c :: bs, _ => exact ⟨_, rfl, fun k => by cases k <;> rfl⟩

/-! ### What every strategy finds -/

theorem tagged_all {P : List Char → Prop} (h₀ : P []) (h : ∀ k b, labelledBody raw k = some b → P b)
    (ht : tagged raw = some t) : t.All P := by
  dsimp only [tagged] at ht
  split at ht
  · cases ht
    exact .of_bodies (labelledBody raw) h₀ h
  · cases ht

theorem positional_all {P : List Char → Prop} (h₀ : P [])
    (h : ∀ b ∈ anyBlock.findAll raw, P (trim b)) (ht : positional raw = some t) : t.All P := by
  unfold positional at ht
  split at ht
  · cases ht
  · rename_i bodies _
    cases ht
    refine List.foldlRecOn _ _ (Sources.All.empty h₀) fun s hs x hx => hs.set ?_ x.1
    obtain ⟨b, hb, he⟩ := List.mem_map.1 (List.of_mem_zip (a := x.1) (b := x.2) hx).2
    exact he ▸ h b hb

theorem labelledBody_eq_some {k : Kind} {b : List Char} (h : labelledBody raw k = some b) :
    ∃ body s r, (labelledBlock k).run s = some (body, r) ∧ b = trim body := by
  obtain ⟨⟨p, body, r⟩, h, he⟩ := Option.map_eq_some_iff.1 h
  obtain ⟨s, -, hs⟩ := find?_splits _ h
  exact ⟨body, s, r, hs, he.symm⟩

/-- Every source is trimmed, whichever strategy found it. -/
theorem trimmed_of_apply (h : s.apply raw = some t) : t.All fun x => trim x = x := by
  have h₀ : ({} : Sources).All fun x => trim x = x := .empty rfl
  cases s with
  | tagged =>
    refine tagged_all rfl (fun k b hb => ?_) h
    obtain ⟨body, -, -, -, rfl⟩ := labelledBody_eq_some hb
    exact trim_trim body
  | positional => exact positional_all rfl (fun b _ => trim_trim b) h
  | markers =>
    simp only [Strategy.apply, markers] at h
    split at h
    · cases h
    · cases h
      exact List.foldlRecOn _ _ h₀ fun s hs x _ => hs.set (trim_trim x.2) x.1
  | heuristic =>
    obtain ⟨k, -, rfl⟩ := Option.map_eq_some_iff.1 h
    exact h₀.set (trim_trim (cleaned raw)) k

theorem trimmed_sources (raw : List Char) : (sources raw).All fun x => trim x = x := by
  unfold sources
  cases h : find raw with
  | none => exact .empty rfl
  | some x => exact trimmed_of_apply (apply_of_find h)

/-- No source holds a fence. -/
def Unfenced (t : Sources) : Prop := t.All fun x => ¬ fence <:+: x

/-- A source that comes from a block holds no fence. -/
theorem unfenced_of_apply (hs : s = .tagged ∨ s = .positional) (h : s.apply raw = some t) :
    Unfenced t := by
  have hbody : ∀ b, ¬ fence <:+: b → ¬ fence <:+: trim b :=
    fun b hb h => hb (h.trans (trim_isInfix b))
  rcases hs with rfl | rfl
  · refine tagged_all (by decide) (fun k b hb => ?_) h
    obtain ⟨body, s, r, hs, rfl⟩ := labelledBody_eq_some hb
    exact hbody body (not_infix_of_run_upTo (by decide) hs)
  · refine positional_all (by decide) (fun b hb => hbody b ?_) h
    exact forall_mem_findAll (fun s a r => not_infix_of_run_upTo (by decide)) raw b hb

theorem unfenced_sources (h : strategy raw = some .tagged ∨ strategy raw = some .positional) :
    Unfenced (sources raw) := by
  unfold strategy at h
  cases hfind : find raw with
  | none => simp [hfind] at h
  | some x =>
    have hs : x.1 = .tagged ∨ x.1 = .positional := by simpa [hfind] using h
    rw [sources_eq hfind]
    exact unfenced_of_apply hs (apply_of_find hfind)

theorem sources_of_no_strategy (h : strategy raw = none) : sources raw = {} := by
  rw [sources, Option.map_eq_none_iff.1 h]
  rfl

/-- Where there is a block, a strategy that reads blocks applies. -/
theorem strategy_of_block (h : anyBlock.findAll raw ≠ []) :
    strategy raw = some .tagged ∨ strategy raw = some .positional := by
  cases ht : tagged raw with
  | some t => exact .inl (strategy_eq (find_of_tagged ht))
  | none =>
    obtain ⟨t, hp, -⟩ := positional_of_ne_nil h
    exact .inr (strategy_eq (find_of_positional ht hp))

end Extraction

end Mockup
