import Mockup.Proofs.Text.Words
import Mockup.Text.Composition

/-! Composed text has no large letters of ASCII if the text had none. The tables have none, and no
Korean syllable is one. -/

namespace Mockup.Text.Composition

theorem isUpper_ofNat {n : Nat} (h : 128 ≤ n) (h' : n < 0xD800) :
    (Char.ofNat n).isUpper = false := by
  refine isUpper_of_lt ?_
  rw [toNat_ofNat_of_valid (.inl h')]
  omega

theorem isSyllable_iff {c : Char} :
    isSyllable c = true ↔ 0xAC00 ≤ c.toNat ∧ c.toNat < 0xD7A4 := by
  rw [isSyllable, Bool.and_eq_true, decide_eq_true_eq, decide_eq_true_eq]
  rfl

/-! ### Taking apart -/

theorem isUpper_pairs : ∀ p ∈ pairs,
    p.1.isUpper = false ∧ p.2.1.isUpper = false ∧ p.2.2.isUpper = false := by
  have hall : pairs.all (fun p => !p.1.isUpper && (!p.2.1.isUpper && !p.2.2.isUpper)) = true := by
    unfold pairs pairTable
    rw [String.toList_ofList]
    decide +kernel
  intro p hp
  simpa using List.all_eq_true.1 hall p hp

theorem isSmall_splitSyllable {c : Char} (h : isSyllable c = true) : IsSmall (splitSyllable c) := by
  obtain ⟨hlow, hhigh⟩ := isSyllable_iff.1 h
  have hbases : syllableBase = 0xAC00 ∧ leadBase = 0x1100 ∧ vowelBase = 0x1161 ∧
    tailBase = 0x11A7 := ⟨rfl, rfl, rfl, rfl⟩
  have hcounts : vowels = 21 ∧ tails = 28 := ⟨rfl, rfl⟩
  unfold splitSyllable
  rw [hcounts.1, hcounts.2]
  refine .append ?_ ?_
  · refine List.forall_mem_cons.2 ⟨isUpper_ofNat ?_ ?_, isSmall_singleton (isUpper_ofNat ?_ ?_)⟩ <;>
      omega
  · split_ifs
    · exact List.forall_mem_nil _
    · exact isSmall_singleton (isUpper_ofNat (by omega) (by omega))

theorem isSmall_splitWithin {table : List (Char × Char × Char)}
    (htable : ∀ p ∈ table, p.2.1.isUpper = false ∧ p.2.2.isUpper = false) {c : Char}
    (h : c.isUpper = false) (fuel : Nat) : IsSmall (splitWithin table fuel c) := by
  induction fuel generalizing c with
  | zero => exact isSmall_singleton h
  | succ fuel ih =>
    rw [splitWithin]
    split
    · rename_i hfind
      obtain ⟨hfirst, hsecond⟩ := htable _ (List.mem_of_find?_eq_some hfind)
      exact .append (ih hfirst) (isSmall_singleton hsecond)
    · exact isSmall_singleton h

theorem isSmall_split {c : Char} (h : c.isUpper = false) : IsSmall (split c) := by
  unfold split
  split_ifs with _ hs
  · exact isSmall_singleton h
  · exact isSmall_splitSyllable hs
  · exact isSmall_splitWithin (fun p hp => (isUpper_pairs p hp).2) h maxMarks

/-! ### Order -/

theorem mem_of_mem_insertMark {c d : Char} {s : List Char} (h : d ∈ insertMark c s) :
    d = c ∨ d ∈ s := by
  induction s with
  | nil => exact List.mem_cons.1 h
  | cons e s ih =>
    rw [insertMark] at h
    split_ifs at h
    · rcases List.mem_cons.1 h with rfl | h
      · exact .inr List.mem_cons_self
      · exact (ih h).imp_right (List.mem_cons_of_mem e)
    · exact List.mem_cons.1 h

theorem mem_of_mem_foldl {d : Char} {s done : List Char}
    (h : d ∈ s.foldl (fun done c => if place c = 0 then c :: done else insertMark c done) done) :
    d ∈ done ∨ d ∈ s := by
  induction s generalizing done with
  | nil => exact .inl h
  | cons c s ih =>
    rcases ih h with h | h
    · have hc : d = c ∨ d ∈ done := by
        dsimp only at h
        split_ifs at h
        · exact List.mem_cons.1 h
        · exact mem_of_mem_insertMark h
      rcases hc with rfl | hd
      · exact .inr List.mem_cons_self
      · exact .inl hd
    · exact .inr (List.mem_cons_of_mem c h)

theorem mem_of_mem_order {d : Char} {s : List Char} (h : d ∈ order s) : d ∈ s :=
  (mem_of_mem_foldl (List.mem_reverse.1 h)).resolve_left List.not_mem_nil

/-! ### Putting together -/

theorem isUpper_joinSyllable {a b c : Char} (h : joinSyllable? a b = some c) :
    c.isUpper = false := by
  have hbases : syllableBase = 0xAC00 ∧ leadBase = 0x1100 ∧ vowelBase = 0x1161 ∧
    tailBase = 0x11A7 := ⟨rfl, rfl, rfl, rfl⟩
  have hcounts : leads = 19 ∧ vowels = 21 ∧ tails = 28 := ⟨rfl, rfl, rfl⟩
  unfold joinSyllable? at h
  dsimp only at h
  rw [hcounts.1, hcounts.2.1, hcounts.2.2] at h
  split_ifs at h with hlead htail
  · simp only [Bool.and_eq_true, decide_eq_true_eq] at hlead
    rw [← Option.some.inj h]
    exact isUpper_ofNat (by omega) (by omega)
  · simp only [isSyllable_iff, Bool.and_eq_true, decide_eq_true_eq] at htail
    rw [← Option.some.inj h]
    exact isUpper_ofNat (by omega) (by omega)

theorem isUpper_join {a b c : Char} (h : join? a b = some c) : c.isUpper = false := by
  rcases Option.or_eq_some_iff.1 h with h | ⟨-, h⟩
  · exact isUpper_joinSyllable h
  · obtain ⟨p, hp, rfl⟩ := Option.map_eq_some_iff.1 h
    exact (isUpper_pairs p (List.mem_of_find?_eq_some hp)).1

theorem isSmall_draw {base : Char} {kept s : List Char} (hbase : base.isUpper = false)
    (hkept : IsSmall kept) (hs : IsSmall s) (last : Nat) : IsSmall (draw base kept last s) := by
  induction s generalizing base kept last with
  | nil => exact List.forall_mem_cons.2 ⟨hbase, hkept⟩
  | cons c s ih =>
    obtain ⟨hc, hs⟩ := List.forall_mem_cons.1 hs
    rw [draw]
    split
    · rename_i whole hwhole
      have hjoin : join? base c = some whole := by
        split_ifs at hwhole
        exact hwhole
      exact ih (isUpper_join hjoin) hkept hs last
    · split_ifs
      · exact .append (List.forall_mem_cons.2 ⟨hbase, hkept⟩) (ih hc (List.forall_mem_nil _) hs 0)
      · exact ih hbase (hkept.append (isSmall_singleton hc)) hs _

theorem isSmall_compose {s : List Char} (h : IsSmall s) : IsSmall (compose s) := by
  have horder : IsSmall (order (s.flatMap split)) := by
    intro d hd
    obtain ⟨c, hc, hd⟩ := List.mem_flatMap.1 (mem_of_mem_order hd)
    exact isSmall_split (h c hc) d hd
  unfold compose
  refine .append (fun c hc => horder c ((List.takeWhile_sublist _).subset hc)) ?_
  have hrest : IsSmall ((order (s.flatMap split)).dropWhile (place · ≠ 0)) :=
    fun c hc => horder c ((List.dropWhile_sublist _).subset hc)
  split
  · exact List.forall_mem_nil _
  · rename_i base t heq
    rw [heq] at hrest
    obtain ⟨hbase, ht⟩ := List.forall_mem_cons.1 hrest
    exact isSmall_draw hbase (List.forall_mem_nil _) ht 0

end Mockup.Text.Composition
