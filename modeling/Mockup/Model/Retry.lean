import Mockup.Model.Failure
import Mockup.Span

/-! Repeated attempts. Attempts are made until one succeeds, one fails for good, or the budget is
used up, with the same pause between any two of them. The outcomes are given by attempt number. -/

namespace Mockup.Model

/-- The attempts that may be made, at least one, and the pause between two. -/
structure RetryPolicy where
  maxAttempts : UInt32
  delay : Span
  pos : 0 < maxAttempts

namespace RetryPolicy

/-- A budget of zero is raised to one. -/
def raise (n : UInt32) : UInt32 := if n = 0 then 1 else n

theorem raise_pos (n : UInt32) : 0 < raise n := by
  unfold raise
  split
  · decide
  · rename_i h
    exact UInt32.pos_iff_ne_zero.2 h

def make (maxAttempts : UInt32) (delay : Span) : RetryPolicy :=
  ⟨raise maxAttempts, delay, raise_pos maxAttempts⟩

def standard : RetryPolicy := make 3 (.ofSeconds 2)

/-- The policy as it shows in logs. -/
def text (p : RetryPolicy) : String :=
  "RetryPolicy \x7b max_attempts: " ++ toString p.maxAttempts ++ ", delay: " ++ p.delay.text ++
    ", .. \x7d"

end RetryPolicy

/-- What is done in a series of attempts. -/
inductive Event where
  | attempt (number : UInt32)
  | pause (length : Span)
  deriving DecidableEq, Repr

namespace Event

def number? : Event → Option UInt32
  | attempt n => some n
  | pause _ => none

def length? : Event → Option Span
  | attempt _ => none
  | pause d => some d

end Event

/-- What a series of attempts did, in order, and what it came to. -/
structure Run (α : Type) where
  events : List Event
  result : Except Failure α

namespace Run

variable {α : Type}

/-- The numbers of the attempts. -/
def attempts (r : Run α) : List UInt32 := r.events.filterMap Event.number?

def pauses (r : Run α) : List Span := r.events.filterMap Event.length?

end Run

/-- An attempt below the budget has a successor among the numbers of 32 bits. -/
theorem toNat_next {n budget : UInt32} (h : n < budget) : (n + 1).toNat = n.toNat + 1 := by
  have h₁ := UInt32.lt_iff_toNat_lt.1 h
  have h₂ := budget.toNat_lt
  rw [UInt32.toNat_add, UInt32.toNat_one]
  omega

/-- Attempt `n` and those after it, as long as the budget lasts. -/
def attemptFrom {α : Type} (endpoint : String) (delay : Span) (outcome : Nat → Except Failure α)
    (budget n : UInt32) : Run α :=
  match outcome n.toNat with
  | .ok a => ⟨[.attempt n], .ok a⟩
  | .error e =>
    if !e.isTransient then ⟨[.attempt n], .error e⟩
    else if h : budget ≤ n then ⟨[.attempt n], .error (.exhausted endpoint n.toNat e)⟩
    else
      let rest := attemptFrom endpoint delay outcome budget (n + 1)
      { rest with events := .attempt n :: .pause delay :: rest.events }
termination_by budget.toNat - n.toNat
decreasing_by
  have h := UInt32.not_le.1 h
  have h₁ := UInt32.lt_iff_toNat_lt.1 h
  rw [toNat_next h]
  omega

namespace RetryPolicy

/-- The budget of a call, which may state its own. -/
def budget (p : RetryPolicy) (own : Option UInt32) : UInt32 := raise (own.getD p.maxAttempts)

/-- Attempts at `endpoint` from the first one on. -/
def run {α : Type} (p : RetryPolicy) (endpoint : String) (own : Option UInt32)
    (outcome : Nat → Except Failure α) : Run α :=
  attemptFrom endpoint p.delay outcome (p.budget own) 1

end RetryPolicy

end Mockup.Model
