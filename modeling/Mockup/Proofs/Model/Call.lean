import Mathlib.Tactic.SplitIfs
import Mockup.Model.Client
import Mockup.Proofs.Model.Retry

/-! Calls of a model server. A call posts one body again and again, until it hears a completion or
its budget is used up. -/

namespace Mockup.Model

/-- The completion that a post ends with: it was answered with success, and the answer came whole.
-/
def Ending.said? : Ending → Option String
  | .answer status (some text) => if isSuccess status then some (completionText text) else none
  | _ => none

/-- The completion in a reaction, wherever the post was sent on to. -/
def Reaction.said? (r : Reaction) : Option String := r.heard.said?

namespace Ending

variable {e : Ending} {silent : Failure}

theorem completion_of_said {text : String} (h : e.said? = some text) (silent : Failure) :
    e.completion silent = .ok text := by
  cases e with
  | silence => cases h
  | lost reason => cases h
  | answer status body =>
    cases body with
    | none => cases h
    | some page =>
      rw [said?] at h
      rw [completion]
      split_ifs at h ⊢
      exact congrArg Except.ok (Option.some.inj h)

/-- Without a completion another attempt is worth making. -/
theorem completion_of_unsaid (h : e.said? = none) (hs : silent.isTransient = true) :
    ∃ f, e.completion silent = .error f ∧ f.isTransient = true := by
  cases e with
  | silence => exact ⟨silent, rfl, hs⟩
  | lost reason => exact ⟨.connection reason, rfl, rfl⟩
  | answer status body =>
    by_cases hstatus : isSuccess status
    · cases body with
      | none => exact ⟨_, if_pos hstatus, rfl⟩
      | some page =>
        rw [said?, if_pos hstatus] at h
        cases h
    · exact ⟨_, if_neg hstatus, rfl⟩

end Ending

/-- Ten redirects at most are followed. -/
theorem Reaction.length_again_le (r : Reaction) : r.again.length ≤ maxHops := by
  rw [again, List.length_map]
  exact Nat.le_trans (List.takeWhile_sublist _).length_le (List.length_take_le _ _)

namespace Client

variable {c : Client} {r : Reaction}

theorem silent_isTransient (c : Client) : c.silent.isTransient = true := by
  unfold silent
  split <;> rfl

/-- The completion that a client hears. What is not posted is not answered. -/
def hears? (c : Client) (r : Reaction) : Option String := if c.target?.isSome then r.said? else none

theorem hears?_of_target (h : c.target?.isSome) (r : Reaction) : c.hears? r = r.said? := if_pos h

theorem receive_of_hears {text : String} (h : c.hears? r = some text) : c.receive r = .ok text := by
  unfold hears? at h
  unfold receive
  split_ifs at h ⊢
  exact Ending.completion_of_said h _

theorem receive_of_unheard (h : c.hears? r = none) :
    ∃ e, c.receive r = .error e ∧ e.isTransient = true := by
  unfold hears? at h
  unfold receive
  split_ifs at h ⊢
  · exact Ending.completion_of_unsaid h c.silent_isTransient
  · exact ⟨c.silent, rfl, c.silent_isTransient⟩

theorem settled_receive_iff : Settled (c.receive r) ↔ c.hears? r ≠ none := by
  cases h : c.hears? r with
  | none =>
    obtain ⟨e, he, htransient⟩ := receive_of_unheard h
    rw [he, settled_error_iff, htransient]
    simp
  | some text =>
    rw [receive_of_hears h]
    simp [Settled]

/-- A call of `k` attempts. Attempt `k` is the first that hears a completion, or the last that the
budget allows. -/
structure Sends (c : Client) (budget : Nat) (body : String) (reactions : Nat → Reaction) (k : Nat)
    (call : Call) : Prop where
  pos : 1 ≤ k
  le_budget : k ≤ budget
  unheard : ∀ n, 1 ≤ n → n < k → c.hears? (reactions n) = none
  spent : c.hears? (reactions k) = none → k = budget
  posts_eq : call.posts =
    if c.target?.isSome then (List.range' 1 k).map fun n => c.post body (reactions n) else []
  pauses_eq : call.pauses = List.replicate (k - 1) c.policy.delay
  result_of_heard : ∀ text, c.hears? (reactions k) = some text → call.result = .ok text
  result_of_unheard : c.hears? (reactions k) = none →
    ∃ last, c.receive (reactions k) = .error last ∧
      call.result = .error (.exhausted c.endpoint budget last)

theorem exists_sends (c : Client) (r : Request) (image : Option Bytes)
    (reactions : Nat → Reaction) :
    ∃ k, c.Sends (c.policy.budget r.maxAttempts).toNat
      (Query.about r.model r.prompt r.temperature image).body reactions k
      (c.send r image reactions) := by
  have hbudget : (1 : UInt32) ≤ c.policy.budget r.maxAttempts := RetryPolicy.raise_pos _
  obtain ⟨k, hk⟩ := Search.exists_last c.endpoint c.policy.delay
    (fun n => c.receive (reactions n)) hbudget
  rw [UInt32.toNat_one] at hk
  have hattempts : (c.policy.run c.endpoint r.maxAttempts
      fun n => c.receive (reactions n)).attempts.map UInt32.toNat = List.range' 1 k := by
    have h := hk.toNat_attempts (UInt32.toNat_lt_size _)
    rwa [Nat.sub_add_cancel hk.le_last] at h
  refine ⟨k, hk.le_last, hk.last_le, fun n h₁ h₂ => ?_, fun h => ?_, ?_, hk.pauses_eq,
    fun text h => ?_, fun h => ?_⟩
  · exact Classical.not_not.1 fun hn => hk.goes_on n h₁ h₂ (settled_receive_iff.2 hn)
  · exact hk.stops.resolve_right fun hs => settled_receive_iff.1 hs h
  · rw [← hattempts, List.map_map]
    rfl
  · have hresult := hk.result_eq
    rw [receive_of_hears h] at hresult
    exact hresult
  · obtain ⟨last, hlast, htransient⟩ := receive_of_unheard h
    have hresult := hk.result_eq
    rw [hlast, concluded, if_pos htransient] at hresult
    exact ⟨last, hlast, hresult⟩

/-- Every post of a call has the same body. -/
theorem Sends.exists_posts {budget k : Nat} {body : String} {reactions : Nat → Reaction}
    {call : Call} (h : c.Sends budget body reactions k call) :
    ∃ rs : List Reaction, call.posts = rs.map (c.post body) := by
  rw [h.posts_eq]
  split_ifs
  · exact ⟨(List.range' 1 k).map reactions, by rw [List.map_map]; rfl⟩
  · exact ⟨[], rfl⟩

theorem Sends.again_le {budget k : Nat} {body : String} {reactions : Nat → Reaction} {call : Call}
    (h : c.Sends budget body reactions k call) :
    ∀ p ∈ call.posts, p.again.length ≤ Reaction.maxHops := by
  obtain ⟨rs, hposts⟩ := h.exists_posts
  rw [hposts]
  exact List.forall_mem_map.2 fun r _ => r.length_again_le

/-- What is posted is the question, at the endpoint. -/
theorem exists_of_mem_send {r : Request} {image : Option Bytes} {reactions : Nat → Reaction}
    {p : Post} (h : p ∈ (c.send r image reactions).posts) :
    ∃ reaction, p = c.post (Query.about r.model r.prompt r.temperature image).body reaction := by
  obtain ⟨k, hsends⟩ := c.exists_sends r image reactions
  obtain ⟨rs, hposts⟩ := hsends.exists_posts
  rw [hposts] at h
  obtain ⟨reaction, -, rfl⟩ := List.mem_map.1 h
  exact ⟨reaction, rfl⟩

end Client

end Mockup.Model
