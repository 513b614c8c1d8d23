import Mathlib.Data.List.Basic
import Mockup.Toml.Table

/-! What the operations on tables under construction do: what is found after each, and, for the
change of a table at a path, what it comes to in the table that the path starts from. -/

namespace Mockup.Toml.Table

variable {t t' : Table} {b : Branch} {k : Key} {name m : String} {path : List Key} {n : Node}
  {header : Extent} {dotted : Bool} {f : Table → Option Table}

/-! ### Finding -/

theorem find?_eq_none_iff : t.find? name = none ↔ name ∉ t.entries.map (·.1.name) := by
  simp [find?]

theorem exists_of_find? (h : t.find? name = some b) : ∃ x ∈ t.entries, x.2 = b := by
  obtain ⟨x, hx, hb⟩ := Option.map_eq_some_iff.1 h
  exact ⟨x, List.mem_of_find?_eq_some hx, hb⟩

theorem find?_add (h : t.find? k.name = none) (b : Branch) (name : String) :
    (t.add k b).find? name = if name = k.name then some b else t.find? name := by
  have hadd : (t.add k b).find? name =
      (t.find? name).or (if k.name == name then some b else none) := by
    rw [find?, add, List.find?_append, List.find?_singleton, Option.map_or, find?]
    congr 1
    split <;> rfl
  rw [hadd]
  split_ifs with hk hname hname
  · rw [hname, h]
    rfl
  · exact absurd (beq_iff_eq.1 hk).symm hname
  · exact absurd (beq_iff_eq.2 hname.symm) hk
  · exact Option.or_none

theorem find?_replace (t : Table) (b : Branch) (name m : String) :
    (t.replace name b).find? m = if m = name then (t.find? m).map fun _ => b else t.find? m := by
  have hmap : (t.replace name b).find? m = (t.entries.find? (·.1.name == m)).map fun x =>
      if x.1.name = name then b else x.2 := by
    rw [find?, replace, List.find?_map, Option.map_map]
    rfl
  rw [hmap, find?]
  cases hfind : t.entries.find? (·.1.name == m) with
  | none => simp
  | some y =>
    have hy : y.1.name = m := by simpa using List.find?_some hfind
    simp only [Option.map_some, hy]
    split <;> rfl

theorem find?_remove (t : Table) (name m : String) :
    (t.remove name).find? m = if m = name then none else t.find? m := by
  rw [find?, remove, List.find?_filter, find?]
  split_ifs with hm
  · rw [List.find?_eq_none.2 fun x _ => by simp [hm]]
    rfl
  · congr 2
    funext x
    rw [Bool.eq_iff_iff, decide_eq_true_iff, bne_iff_ne, beq_iff_eq, and_iff_right_iff_imp]
    rintro rfl
    exact hm

/-! ### Changing -/

/-- A change at a path goes on in a new table, in a table that is there, or in the last element of
an array of tables. -/
theorem update_cons_cases (h : t.update dotted (k :: path) f = some t') :
    (∃ o c', t.find? k.name = none ∧ update dotted path f ⟨o, k.extent, []⟩ = some c' ∧
      t' = t.add k (.table c')) ∨
    (∃ c c', t.find? k.name = some (.table c) ∧ c.update dotted path f = some c' ∧
      t' = t.replace k.name (.table c')) ∨
    ∃ e ts last last', t.find? k.name = some (.tables e ts) ∧ ts.getLast? = some last ∧
      last.update dotted path f = some last' ∧
      t' = t.replace k.name (.tables e (ts.dropLast ++ [last'])) := by
  rw [update] at h
  split at h
  · rename_i hfind
    obtain ⟨c', hc, he⟩ := Option.bind_eq_some_iff.1 h
    cases he
    exact .inl ⟨_, c', hfind, hc, rfl⟩
  · rename_i c hfind
    split at h
    · cases h
    · obtain ⟨c', hc, he⟩ := Option.bind_eq_some_iff.1 h
      cases he
      exact .inr (.inl ⟨c, c', hfind, hc, rfl⟩)
  · rename_i e ts hfind
    obtain ⟨last, hlast, h⟩ := Option.bind_eq_some_iff.1 h
    obtain ⟨last', hlast', he⟩ := Option.bind_eq_some_iff.1 h
    cases he
    exact .inr (.inr ⟨e, ts, last, last', hfind, hlast, hlast', rfl⟩)
  · cases h

/-- A value is added under a new name. -/
theorem exists_update_of_assign (h : t.assign path k n = some t') :
    ∃ f, t.update true path f = some t' ∧
      ∀ c c', f c = some c' → c.find? k.name = none ∧ c' = c.add k (.value n) := by
  refine ⟨_, h, fun c c' hc => ?_⟩
  split at hc
  · cases hc
  · split at hc
    · cases hc
    · rename_i hfind
      cases hc
      exact ⟨by simpa using hfind, rfl⟩

/-- A header adds a table under a new name, or takes over a table that was only passed. -/
theorem exists_update_of_define (h : t.define path k header = some t') :
    ∃ f, t.update false path f = some t' ∧ ∀ c c', f c = some c' →
      (c.find? k.name = none ∧ c' = c.add k (.table ⟨.header, header, []⟩)) ∨
      ∃ c₁, c.find? k.name = some (.table c₁) ∧
        c' = (c.remove k.name).add k (.table ⟨.header, header, c₁.entries⟩) := by
  refine ⟨_, h, fun c c' hc => ?_⟩
  split at hc
  · rename_i hfind
    cases hc
    exact .inl ⟨hfind, rfl⟩
  · rename_i c₁ hfind
    split at hc <;> cases hc
    exact .inr ⟨c₁, hfind, rfl⟩
  · cases hc

/-- A header with two brackets starts an array of tables under a new name, or extends one. -/
theorem exists_update_of_append (h : t.append path k header = some t') :
    ∃ f, t.update false path f = some t' ∧ ∀ c c', f c = some c' →
      (c.find? k.name = none ∧ c' = c.add k (.tables header [⟨.header, header, []⟩])) ∨
      ∃ e ts, c.find? k.name = some (.tables e ts) ∧
        c' = c.replace k.name (.tables e (ts ++ [⟨.header, header, []⟩])) := by
  refine ⟨_, h, fun c c' hc => ?_⟩
  split at hc
  · rename_i hfind
    cases hc
    exact .inl ⟨hfind, rfl⟩
  · rename_i e ts hfind
    cases hc
    exact .inr ⟨e, ts, hfind, rfl⟩
  · cases hc

end Mockup.Toml.Table
