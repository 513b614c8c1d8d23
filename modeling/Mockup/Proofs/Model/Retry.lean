import Mathlib.Order.Bounds.Defs
import Mockup.Model.Retry

/-! Repeated attempts as a bounded search. The attempts stop at the first outcome that settles the
call, at the budget at the latest, and a pause stands between any two of them and nowhere else. -/

namespace Mockup.Model

variable {α : Type}

/-- Another attempt would not help: a success, or a failure that neither the transport nor the
server is the cause of. -/
def Settled : Except Failure α → Prop
  | .error (.connection _) | .error (.status _ _) | .error (.body _) => False
  | _ => True

/-- The result of a call whose last attempt came out this way. -/
def concluded (endpoint : String) (budget : Nat) : Except Failure α → Except Failure α
  | .ok a => .ok a
  | .error e => if e.isTransient then .error (.exhausted endpoint budget e) else .error e

theorem settled_error_iff (e : Failure) :
    Settled (.error e : Except Failure α) ↔ e.isTransient = false := by
  cases e <;> simp [Settled, Failure.isTransient]

theorem concluded_of_settled {o : Except Failure α} (h : Settled o) (endpoint : String)
    (budget : Nat) : concluded endpoint budget o = o := by
  cases o with
  | ok a => rfl
  | error e => rw [concluded, (settled_error_iff e).1 h]; rfl

theorem concluded_of_not_settled {e : Failure} (h : ¬ Settled (.error e : Except Failure α))
    (endpoint : String) (budget : Nat) :
    concluded endpoint budget (.error e : Except Failure α) =
      .error (.exhausted endpoint budget e) := by
  rw [settled_error_iff, Bool.not_eq_false] at h
  rw [concluded, if_pos h]

/-! ### Attempts with pauses between them -/

/-- Attempts by number from `n` on, and the pauses between them. -/
def trail (delay : Span) (n count : Nat) : List Event :=
  ((List.range' n count).map fun i => .attempt (.ofNat i)).intersperse (.pause delay)

theorem trail_one (delay : Span) (n : Nat) : trail delay n 1 = [.attempt (.ofNat n)] := rfl

theorem trail_succ (delay : Span) (n count : Nat) :
    trail delay n (count + 2) =
      .attempt (.ofNat n) :: .pause delay :: trail delay (n + 1) (count + 1) := rfl

theorem attempts_trail (delay : Span) (n count : Nat) :
    (trail delay n (count + 1)).filterMap Event.number? =
      (List.range' n (count + 1)).map .ofNat := by
  induction count generalizing n with
  | zero => rfl
  | succ count ih =>
    rw [trail_succ, List.range'_succ, List.map_cons, ← ih (n + 1)]
    rfl

theorem pauses_trail (delay : Span) (n count : Nat) :
    (trail delay n (count + 1)).filterMap Event.length? = List.replicate count delay := by
  induction count generalizing n with
  | zero => rfl
  | succ count ih =>
    rw [trail_succ, List.replicate_succ, ← ih (n + 1)]
    rfl

/-! ### One attempt -/

section Step

variable {endpoint : String} {delay : Span} {outcome : Nat → Except Failure α} {budget n : UInt32}

theorem attemptFrom_of_settled (h : Settled (outcome n.toNat)) :
    attemptFrom endpoint delay outcome budget n = ⟨[.attempt n], outcome n.toNat⟩ := by
  rw [attemptFrom]
  cases ho : outcome n.toNat with
  | ok a => rfl
  | error e =>
    rw [ho, settled_error_iff] at h
    simp [h]

theorem attemptFrom_of_spent (h : ¬ Settled (outcome n.toNat)) (hn : budget ≤ n) :
    attemptFrom endpoint delay outcome budget n =
      ⟨[.attempt n], concluded endpoint n.toNat (outcome n.toNat)⟩ := by
  rw [attemptFrom]
  cases ho : outcome n.toNat with
  | ok a => exact absurd (ho ▸ trivial) h
  | error e =>
    rw [ho] at h
    rw [concluded_of_not_settled h]
    rw [settled_error_iff, Bool.not_eq_false] at h
    simp [h, hn]

theorem attemptFrom_of_left (h : ¬ Settled (outcome n.toNat)) (hn : n < budget) :
    attemptFrom endpoint delay outcome budget n =
      ⟨.attempt n :: .pause delay :: (attemptFrom endpoint delay outcome budget (n + 1)).events,
        (attemptFrom endpoint delay outcome budget (n + 1)).result⟩ := by
  rw [attemptFrom]
  cases ho : outcome n.toNat with
  | ok a => exact absurd (ho ▸ trivial) h
  | error e =>
    rw [ho, settled_error_iff, Bool.not_eq_false] at h
    simp [h, UInt32.not_le.2 hn]

end Step

/-! ### The attempts from a number on -/

/-- What the attempts from `n` on do under the budget, when the last of them is attempt `k`. -/
structure Search (endpoint : String) (delay : Span) (outcome : Nat → Except Failure α)
    (budget n k : Nat) (r : Run α) : Prop where
  le_last : n ≤ k
  last_le : k ≤ budget
  stops : k = budget ∨ Settled (outcome k)
  goes_on : ∀ i, n ≤ i → i < k → ¬ Settled (outcome i)
  events_eq : r.events = trail delay n (k - n + 1)
  result_eq : r.result = concluded endpoint budget (outcome k)

namespace Search

variable {endpoint : String} {delay : Span} {outcome : Nat → Except Failure α} {budget n : UInt32}
  {k : Nat}

theorem of_settled (h : Settled (outcome n.toNat)) (hn : n ≤ budget) :
    Search endpoint delay outcome budget.toNat n.toNat n.toNat
      (attemptFrom endpoint delay outcome budget n) where
  le_last := Nat.le_refl _
  last_le := UInt32.le_iff_toNat_le.1 hn
  stops := .inr h
  goes_on i h₁ h₂ := by omega
  events_eq := by rw [attemptFrom_of_settled h, Nat.sub_self, trail_one, UInt32.ofNat_toNat]
  result_eq := by rw [attemptFrom_of_settled h, concluded_of_settled h]

theorem of_spent (h : ¬ Settled (outcome n.toNat)) :
    Search endpoint delay outcome n.toNat n.toNat n.toNat
      (attemptFrom endpoint delay outcome n n) where
  le_last := Nat.le_refl _
  last_le := Nat.le_refl _
  stops := .inl rfl
  goes_on i h₁ h₂ := by omega
  events_eq := by
    rw [attemptFrom_of_spent h (UInt32.le_refl n), Nat.sub_self, trail_one, UInt32.ofNat_toNat]
  result_eq := by rw [attemptFrom_of_spent h (UInt32.le_refl n)]

/-- An attempt and a pause before the others, with the counter one lower. -/
theorem of_left (h : ¬ Settled (outcome n.toNat)) (hn : n < budget)
    (hs : Search endpoint delay outcome budget.toNat (n + 1).toNat k
      (attemptFrom endpoint delay outcome budget (n + 1))) :
    Search endpoint delay outcome budget.toNat n.toNat k
      (attemptFrom endpoint delay outcome budget n) := by
  obtain ⟨hle, hlast, hstops, hon, hevents, hresult⟩ := hs
  have hnext := toNat_next hn
  rw [hnext] at hle hon hevents
  refine ⟨by omega, hlast, hstops, fun i h₁ h₂ => ?_, ?_, ?_⟩
  · rcases Nat.eq_or_lt_of_le h₁ with rfl | h₁
    · exact h
    · exact hon i h₁ h₂
  · have hcount : k - n.toNat + 1 = k - (n.toNat + 1) + 2 := by omega
    rw [attemptFrom_of_left h hn, hevents, hcount, trail_succ, UInt32.ofNat_toNat]
  · rw [attemptFrom_of_left h hn, hresult]

variable (endpoint delay outcome) in
/-- Attempts from any number within the budget come to an end, by induction on the attempts that
are left. -/
theorem exists_last (hn : n ≤ budget) :
    ∃ k, Search endpoint delay outcome budget.toNat n.toNat k
      (attemptFrom endpoint delay outcome budget n) := by
  induction hleft : budget.toNat - n.toNat generalizing n with
  | zero =>
    have hle := UInt32.le_iff_toNat_le.1 hn
    have heq : n = budget := UInt32.toNat_inj.1 (by omega)
    subst heq
    by_cases h : Settled (outcome n.toNat)
    · exact ⟨_, of_settled h hn⟩
    · exact ⟨_, of_spent h⟩
  | succ left ih =>
    have hlt : n < budget := UInt32.lt_iff_toNat_lt.2 (by omega)
    by_cases h : Settled (outcome n.toNat)
    · exact ⟨_, of_settled h hn⟩
    · have hnext := toNat_next hlt
      obtain ⟨k, hk⟩ := ih (n := n + 1) (UInt32.le_iff_toNat_le.2 (by omega)) (by omega)
      exact ⟨k, of_left h hlt hk⟩

section

variable {budget n k : Nat} {r : Run α}

theorem pauses_eq (h : Search endpoint delay outcome budget n k r) :
    r.pauses = List.replicate (k - n) delay := by
  rw [Run.pauses, h.events_eq, pauses_trail]

/-- No attempt has a number that 32 bits cannot hold. -/
theorem toNat_attempts (h : Search endpoint delay outcome budget n k r) (hb : budget < UInt32.size) :
    r.attempts.map UInt32.toNat = List.range' n (k - n + 1) := by
  rw [Run.attempts, h.events_eq, attempts_trail, List.map_map]
  have hid : ∀ i ∈ List.range' n (k - n + 1), (UInt32.toNat ∘ UInt32.ofNat) i = id i := by
    intro i hi
    have hlast := h.last_le
    have hrange := (List.mem_range'_1.1 hi).2
    have hle := h.le_last
    exact UInt32.toNat_ofNat_of_lt' (by omega)
  rw [List.map_congr_left hid, List.map_id]

theorem isLeast (h : Search endpoint delay outcome budget n k r) :
    IsLeast {i | n ≤ i ∧ (i = budget ∨ Settled (outcome i))} k := by
  refine ⟨⟨h.le_last, h.stops⟩, fun i ⟨hn, hi⟩ => ?_⟩
  rcases hi with hi | hi
  · exact hi ▸ h.last_le
  · exact Nat.le_of_not_lt fun hk => h.goes_on i hn hk hi

end

end Search

/-! ### Runs of a policy -/

namespace RetryPolicy

theorem toNat_raise (n : UInt32) : (raise n).toNat = max 1 n.toNat := by
  unfold raise
  split
  · rename_i h
    subst h
    rfl
  · rename_i h
    have : 0 < n.toNat := UInt32.lt_iff_toNat_lt.1 (UInt32.pos_iff_ne_zero.2 h)
    omega

theorem toNat_budget_make (maxAttempts : UInt32) (delay : Span) (own : Option UInt32) :
    ((make maxAttempts delay).budget own).toNat = max 1 (own.getD maxAttempts).toNat := by
  cases own with
  | none =>
    simp only [budget, make, toNat_raise, Option.getD_none]
    omega
  | some n => rw [budget, toNat_raise, Option.getD_some, Option.getD_some]

/-- A run is a bounded search. The last attempt is the first one that uses the budget up or settles
the call; the attempts before it are made in order, with one pause between any two; and the number
of an attempt is never cut to 32 bits. -/
theorem run_bounded_search (maxAttempts : UInt32) (delay : Span) (endpoint : String)
    (own : Option UInt32) (outcome : Nat → Except Failure α) :
    let budget := max 1 (own.getD maxAttempts).toNat
    let r := (make maxAttempts delay).run endpoint own outcome
    ∃ k, IsLeast {n | 1 ≤ n ∧ (n = budget ∨ Settled (outcome n))} k ∧
      r.events = trail delay 1 k ∧
      r.attempts.map UInt32.toNat = List.range' 1 k ∧
      r.pauses = List.replicate (k - 1) delay ∧
      r.result = concluded endpoint budget (outcome k) := by
  intro budget r
  have hbudget : ((make maxAttempts delay).budget own).toNat = budget :=
    toNat_budget_make maxAttempts delay own
  have hpos : (1 : UInt32) ≤ (make maxAttempts delay).budget own := by
    rw [UInt32.le_iff_toNat_le, hbudget]
    exact Nat.le_max_left 1 _
  obtain ⟨k, hk⟩ := Search.exists_last endpoint delay outcome hpos
  rw [hbudget, UInt32.toNat_one] at hk
  have hcount : k - 1 + 1 = k := Nat.sub_add_cancel hk.le_last
  have hsmall : budget < UInt32.size :=
    hbudget ▸ ((make maxAttempts delay).budget own).toNat_lt_size
  refine ⟨k, hk.isLeast, ?_, ?_, hk.pauses_eq, hk.result_eq⟩
  · rw [← hcount]
    exact hk.events_eq
  · rw [← hcount]
    exact hk.toNat_attempts hsmall

end RetryPolicy

end Mockup.Model
