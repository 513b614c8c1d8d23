import Mockup.Proofs.Json.Value
import Mockup.Proofs.Model.Query
import Mockup.Proofs.Server.Generation

/-! What validation guarantees. Nothing that the model server is asked under a usable configuration
lacks a model or has a temperature that is out of range or is none, and the attempts are as many as
the configuration says. -/

namespace Mockup

open Number

/-- A number of the format, an infinity, or no number. -/
def Number.Format.Has (f : Format) : Floating → Prop
  | x@(.finite ..) => f.IsNumber x
  | _ => True

instance (f : Format) (x : Floating) : Decidable (f.Has x) :=
  match x with
  | .finite s m e => inferInstanceAs (Decidable (f.IsNumber (.finite s m e)))
  | .infinite _ | .nan => inferInstanceAs (Decidable True)

/-! ### Questions -/

namespace Model

open Json

/-- The body of a post is one JSON object, whatever reads it. It names a model by a name that shows,
and has a temperature from zero to two. -/
def IsSound (body : String) : Prop :=
  ∃ ms, IsTextOf body.toList (object ms) ∧ ofText? body = some (object ms) ∧
    (ms.map (·.1)).Nodup ∧
    (∃ model, (object ms).member? "model" = some (string model) ∧
      ∃ c ∈ model.toList, Text.isBlank c = false) ∧
    ∃ n, (object ms).member? "temperature" = some (number n) ∧ 0 ≤ n.toRat ∧ n.toRat ≤ 2

theorem Query.member_temperature (model prompt : String) (temperature : Floating)
    (image : Option Bytes) :
    (about model prompt temperature image).json.member? "temperature" =
      some (ofSingle temperature) := by
  cases image <;> rfl

/-- The question to a stage that can be asked is sound. -/
theorem Query.isSound_about {stage : Config.Stage} (h : stage.IsUsable)
    (hsingle : Format.single.Has stage.temperature) (prompt : String) (image : Option Bytes) :
    IsSound (about stage.model prompt stage.temperature image).body := by
  have hrange := Floating.isBetweenZeroAnd_iff.2 h.temperature
  have hnumber : Format.single.IsNumber stage.temperature := by
    obtain ⟨model, temperature⟩ := stage
    cases temperature with
    | finite s m e => exact hsingle
    | infinite s => cases hrange
    | nan => cases hrange
  obtain ⟨n, htemperature, hvalue⟩ := exists_ofSingle_le_two hnumber hrange
  obtain ⟨ms, hjson, hreadable, hputs⟩ := puts_about stage.model prompt hnumber image
  have hread : ofText? (about stage.model prompt stage.temperature image).body =
      some (object ms) := by
    rw [body, hjson]
    exact ofText?_write hreadable
  have hmember := member_temperature stage.model prompt stage.temperature image
  rw [hjson, htemperature] at hmember
  exact ⟨ms, ofText?_eq_some_iff.1 hread, hread, hputs.distinct, ⟨_, hputs.model, h.model⟩,
    n, hmember, hvalue⟩

end Model

/-! ### The service -/

namespace Server

variable {c : Config} {s : Server}

/-- The temperatures of a configuration have single precision. -/
def HasSingles (c : Config) : Prop :=
  Format.single.Has c.pipeline.vision.temperature ∧
    Format.single.Has c.pipeline.codegen.temperature

theorem pipeline_of_build (h : build c = .ok s) : s.workshop.pipeline = c.pipeline := by
  obtain ⟨-, delay, hw⟩ := build_eq_ok h
  rw [hw]

/-- Whatever the models are asked for, the question is sound. -/
theorem isSound_of_makes (hc : c.Usable) (hsingle : HasSingles c) (hb : build c = .ok s)
    {call : Model.Call} (hcall : s.workshop.Makes call) :
    ∀ p ∈ call.posts, Model.IsSound p.body := by
  have hpipeline := pipeline_of_build hb
  intro p hp
  cases hcall with
  | vision path image reactions =>
    obtain ⟨reaction, rfl⟩ := Model.Client.exists_of_mem_send hp
    dsimp only [Model.Client.post, Workshop.visionRequest]
    rw [hpipeline]
    exact Model.Query.isSound_about hc.vision hsingle.1 _ image
  | codegen description reactions =>
    obtain ⟨reaction, rfl⟩ := Model.Client.exists_of_mem_send hp
    dsimp only [Model.Client.post, Workshop.codegenRequest]
    rw [hpipeline]
    exact Model.Query.isSound_about hc.codegen hsingle.2 _ none

/-- Both stages have the budget, and it is what their calls go by. -/
structure HasBudget (s : Server) (budget : UInt32) : Prop where
  vision : ∀ path, s.workshop.client.policy.budget (s.workshop.visionRequest path).maxAttempts =
    budget
  codegen : ∀ description,
    s.workshop.client.policy.budget (s.workshop.codegenRequest description).maxAttempts = budget
  vision_sends : ∀ path image reactions, ∃ body k, s.workshop.client.Sends budget.toNat body
    reactions k (s.workshop.client.send (s.workshop.visionRequest path) image reactions)
  codegen_sends : ∀ description reactions, ∃ body k, s.workshop.client.Sends budget.toNat body
    reactions k (s.workshop.client.send (s.workshop.codegenRequest description) none reactions)

theorem raise_eq_self {n : UInt32} (h : 1 ≤ n.toNat) : Model.RetryPolicy.raise n = n := by
  refine if_neg fun hzero => ?_
  rw [hzero] at h
  exact absurd h (by decide)

theorem hasBudget_of_build (hc : c.Usable) (hb : build c = .ok s) :
    s.HasBudget c.backend.retry.maxAttempts := by
  have hraise := raise_eq_self hc.attempts
  have hbudget : s.workshop.client.policy.budget none = c.backend.retry.maxAttempts := by
    obtain ⟨-, delay, hw⟩ := build_eq_ok hb
    rw [hw]
    exact (congrArg Model.RetryPolicy.raise hraise).trans hraise
  refine ⟨fun _ => hbudget, fun _ => hbudget, fun path image reactions => ?_,
    fun description reactions => ?_⟩
  · rw [← hbudget]
    exact ⟨_, s.workshop.client.exists_sends (s.workshop.visionRequest path) image reactions⟩
  · rw [← hbudget]
    exact ⟨_, s.workshop.client.exists_sends (s.workshop.codegenRequest description) none reactions⟩

/-- Validation accepts the usable configurations. Under each of them, whatever is asked of the
service, every question to the model server is sound, and each stage may make as many attempts as
the configuration says, which is never raised. -/
theorem usable_guarantees (c : Config) :
    (c.validate = .ok () ↔ c.Usable) ∧
    (HasSingles c → c.validate = .ok () →
      Model.RetryPolicy.raise c.backend.retry.maxAttempts = c.backend.retry.maxAttempts ∧
      ∀ s, build c = .ok s →
        s.HasBudget c.backend.retry.maxAttempts ∧
        (∀ call, s.workshop.Makes call → ∀ p ∈ call.posts, Model.IsSound p.body) ∧
        ∀ o d r, ∀ p ∈ (s.answer o d r).posts, Model.IsSound p.body) := by
  refine ⟨Config.validate_eq_ok_iff c, fun hsingle hv => ?_⟩
  have hc := (Config.validate_eq_ok_iff c).1 hv
  refine ⟨raise_eq_self hc.attempts, fun s hb => ?_⟩
  have hmakes (call : Model.Call) (hcall : s.workshop.Makes call) :
      ∀ p ∈ call.posts, Model.IsSound p.body := isSound_of_makes hc hsingle hb hcall
  exact ⟨hasBudget_of_build hc hb, hmakes, fun o d r => (madeOf_answer s o d r).forall_posts hmakes⟩

theorem usable_default :
    ∃ s, build {} = .ok s ∧ s.HasBudget 3 ∧ (s.answer kindOccasion {} designRequest).posts ≠ [] ∧
      ∀ p ∈ (s.answer kindOccasion {} designRequest).posts, Model.IsSound p.body := by
  have hbuild : (build {}).toOption.any (fun _ => true) = true := by decide +kernel
  obtain ⟨s, hb, -⟩ := Except.exists_of_any hbuild
  obtain ⟨-, hguarantees⟩ := usable_guarantees {}
  obtain ⟨-, hbuilt⟩ := hguarantees ⟨by decide +kernel, by decide +kernel⟩ (by decide +kernel)
  obtain ⟨hbudget, -, hanswer⟩ := hbuilt s hb
  have hu : Upload.ofRequest s.bodyLimit designRequest = .ok design := by
    rw [(build_eq_ok hb).1]
    exact ofRequest_design (by decide +kernel)
  have hstore : (Upload.store {} ({} : Config).server.uploadDir kindOccasion.uuid design).1 =
      .ok "uploads/0-a.png" := by
    decide +kernel
  have ht : s.workshop.client.target?.isSome := by
    rw [target?_of_build hb]
    decide +kernel
  obtain ⟨a, b, hasks, -⟩ := exists_course ht rfl (by decide) hu (store_of_build hb hstore)
  refine ⟨s, hb, hbudget, fun hnone => ?_, hanswer _ _ _⟩
  have hlength := congrArg List.length (hasks.posts_eq.symm.trans hnone)
  have hpos := hasks.vision_pos
  simp only [List.length_append, List.length_map, List.length_range', List.length_nil] at hlength
  omega

end Server

end Mockup
