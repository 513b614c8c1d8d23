import Mathlib.Logic.Function.Iterate
import Mockup.Proofs.Disk
import Mockup.Proofs.Model.Call
import Mockup.Proofs.Server.Upload
import Mockup.Server.Job

/-! The steps of a job, one after another, and what is posted on the way. -/

namespace Mockup.Server

open Model

/-- A job after a call. -/
def Job.after (j : Job) (call : Call) (stage : Stage) : Job :=
  { j with
    stage := stage
    posts := j.posts ++ call.posts
    pauses := j.pauses ++ call.pauses }

namespace Workshop

variable {w : Workshop} {reactions : Nat → Reaction} {d : Disk} {j : Job}

/-! ### All steps of a job -/

theorem stepsLeft_step (w : Workshop) (reactions : Nat → Reaction) (d : Disk) (j : Job) :
    stepsLeft (w.step reactions d j).2.stage ≤ stepsLeft j.stage - 1 := by
  obtain ⟨uuid, upload, stage, posts, pauses⟩ := j
  cases stage with
  | received =>
    unfold step
    dsimp only
    split <;> simp [stepsLeft]
  | housed =>
    unfold step
    dsimp only
    split <;> simp [stepsLeft]
  | stored =>
    unfold step
    dsimp only
    split <;> simp [stepsLeft]
  | seen image =>
    simp only [step, call]
    split <;> simp [stepsLeft]
  | described description =>
    simp only [step, call]
    split <;> simp [stepsLeft]
  | settled outcome => simp [step, stepsLeft]
  | done outcome => simp [step, stepsLeft]

/-- A step as a function of the disk and the job. -/
def advance (w : Workshop) (reactions : Nat → Reaction) (p : Disk × Job) : Disk × Job :=
  w.step reactions p.1 p.2

theorem done_of_stepsLeft {stage : Stage} (h : stepsLeft stage = 0) :
    ∃ outcome, stage = .done outcome := by
  cases stage with
  | done outcome => exact ⟨outcome, rfl⟩
  | _ => cases h

theorem advance_idle {p : Disk × Job} (h : stepsLeft p.2.stage = 0) :
    w.advance reactions p = p := by
  obtain ⟨d, j⟩ := p
  obtain ⟨outcome, hs⟩ := done_of_stepsLeft h
  unfold advance step
  dsimp only at hs ⊢
  rw [hs]

theorem stepsLeft_iterate (w : Workshop) (reactions : Nat → Reaction) (p : Disk × Job) (n : Nat) :
    stepsLeft ((w.advance reactions)^[n] p).2.stage ≤ stepsLeft p.2.stage - n := by
  induction n with
  | zero => exact Nat.le_refl _
  | succ n ih =>
    rw [Function.iterate_succ_apply']
    have hstep : stepsLeft (w.advance reactions ((w.advance reactions)^[n] p)).2.stage ≤ _ :=
      stepsLeft_step w reactions _ _
    omega

theorem run_eq_iterate (w : Workshop) (reactions : Nat → Reaction) (d : Disk) (j : Job) :
    w.run reactions d j = (w.advance reactions)^[stepsLeft j.stage] (d, j) := by
  have h := List.foldl_const (w.advance reactions) (d, j) (List.range (stepsLeft j.stage))
  rwa [List.length_range] at h

/-- Steps beyond the last one change nothing, so the number of them is of no account. -/
theorem iterate_eq_run {n : Nat} (h : stepsLeft j.stage ≤ n) :
    (w.advance reactions)^[n] (d, j) = w.run reactions d j := by
  have hlast := stepsLeft_iterate w reactions (d, j) (stepsLeft j.stage)
  rw [Nat.sub_self, Nat.le_zero] at hlast
  have hidle : w.advance reactions _ = _ := advance_idle hlast
  rw [run_eq_iterate, ← Nat.sub_add_cancel h, Function.iterate_add_apply,
    Function.iterate_fixed hidle]

/-- A run ends. -/
theorem exists_done (w : Workshop) (reactions : Nat → Reaction) (d : Disk) (j : Job) :
    ∃ outcome, (w.run reactions d j).2.stage = .done outcome := by
  rw [run_eq_iterate]
  have hlast := stepsLeft_iterate w reactions (d, j) (stepsLeft j.stage)
  rw [Nat.sub_self, Nat.le_zero] at hlast
  exact done_of_stepsLeft hlast

theorem run_step (w : Workshop) (reactions : Nat → Reaction) (d : Disk) (j : Job) :
    w.run reactions d j =
      w.run reactions (w.step reactions d j).1 (w.step reactions d j).2 := by
  have hstep : stepsLeft (w.step reactions d j).2.stage ≤ stepsLeft j.stage :=
    Nat.le_trans (stepsLeft_step w reactions d j) (Nat.sub_le _ 1)
  rw [← iterate_eq_run (Nat.le_succ (stepsLeft j.stage)), Function.iterate_succ_apply]
  exact iterate_eq_run hstep

theorem run_done {outcome : Except Failure Product} (h : j.stage = .done outcome) :
    w.run reactions d j = (d, j) := by
  rw [run_eq_iterate, h]
  rfl

/-! ### What is posted -/

/-- The question to the vision model: its own model, prompt and temperature, and the image in
base64. -/
def visionBody (w : Workshop) (image : Bytes) : String :=
  Json.write (.object [("model", .string w.pipeline.vision.model), ("prompt", .string visionPrompt),
    ("stream", .bool false), ("temperature", .ofSingle w.pipeline.vision.temperature),
    ("images", .array [.string (.ofList (Text.Base64.encode image))])])

/-- The question to the code model: its own model and temperature, and a prompt about the
description. -/
def codegenBody (w : Workshop) (description : String) : String :=
  Json.write (.object [("model", .string w.pipeline.codegen.model),
    ("prompt", .string (codegenPrompt description)), ("stream", .bool false),
    ("temperature", .ofSingle w.pipeline.codegen.temperature)])

/-- An attempt to ask the vision model, and what becomes of it. -/
def visionPost (w : Workshop) (image : Bytes) (r : Reaction) : Post :=
  w.client.post (w.visionBody image) r

/-- An attempt to ask the code model. -/
def codegenPost (w : Workshop) (description : String) (r : Reaction) : Post :=
  w.client.post (w.codegenBody description) r

/-- The attempts that each of the two calls may make. -/
def budget (w : Workshop) : Nat := (w.client.policy.budget none).toNat

theorem visionBody_eq (w : Workshop) (image : Bytes) :
    w.visionBody image = (Query.about w.pipeline.vision.model visionPrompt
      w.pipeline.vision.temperature (some image)).body := by
  simp only [visionBody, Query.body, Query.json, Query.about, Option.map_some,
    Option.toList_some, List.map_cons, List.map_nil, List.cons_append, List.nil_append]

theorem codegenBody_eq (w : Workshop) (description : String) :
    w.codegenBody description = (Query.about w.pipeline.codegen.model
      (codegenPrompt description) w.pipeline.codegen.temperature none).body := by
  simp only [codegenBody, Query.body, Query.json, Query.about, Option.map_none,
    Option.toList_none, List.append_nil]

theorem exists_vision_sends (w : Workshop) (path : String) (image : Bytes)
    (reactions : Nat → Reaction) :
    ∃ k, w.client.Sends w.budget (w.visionBody image) reactions k
      (w.client.send (w.visionRequest path) (some image) reactions) := by
  rw [visionBody_eq]
  exact w.client.exists_sends (w.visionRequest path) (some image) reactions

theorem exists_codegen_sends (w : Workshop) (description : String) (reactions : Nat → Reaction) :
    ∃ k, w.client.Sends w.budget (w.codegenBody description) reactions k
      (w.client.send (w.codegenRequest description) none reactions) := by
  rw [codegenBody_eq]
  exact w.client.exists_sends (w.codegenRequest description) none reactions

theorem send_vision_posts (w : Workshop) (path : String) (image : Bytes)
    (reactions : Nat → Reaction) :
    ∃ rs : List Reaction, (w.client.send (w.visionRequest path) (some image) reactions).posts =
      rs.map (w.visionPost image) := by
  obtain ⟨k, hk⟩ := w.exists_vision_sends path image reactions
  exact hk.exists_posts

theorem send_codegen_posts (w : Workshop) (description : String) (reactions : Nat → Reaction) :
    ∃ rs : List Reaction, (w.client.send (w.codegenRequest description) none reactions).posts =
      rs.map (w.codegenPost description) := by
  obtain ⟨k, hk⟩ := w.exists_codegen_sends description reactions
  exact hk.exists_posts

/-- The calls of the two models. -/
inductive Makes (w : Workshop) : Call → Prop where
  | vision (path : String) (image : Option Bytes) (reactions : Nat → Reaction) :
    Makes w (w.client.send (w.visionRequest path) image reactions)
  | codegen (description : String) (reactions : Nat → Reaction) :
    Makes w (w.client.send (w.codegenRequest description) none reactions)

/-- The posts and the pauses are those of calls of the two models, one call after another. -/
def MadeOf (w : Workshop) (posts : List Post) (pauses : List Span) : Prop :=
  ∃ calls : List Call, (∀ call ∈ calls, w.Makes call) ∧ posts = calls.flatMap (·.posts) ∧
    pauses = calls.flatMap (·.pauses)

theorem madeOf_nil : w.MadeOf [] [] := ⟨[], List.forall_mem_nil _, rfl, rfl⟩

theorem MadeOf.append {posts : List Post} {pauses : List Span} {call : Call}
    (h : w.MadeOf posts pauses) (hcall : w.Makes call) :
    w.MadeOf (posts ++ call.posts) (pauses ++ call.pauses) := by
  obtain ⟨calls, hcalls, rfl, rfl⟩ := h
  refine ⟨calls ++ [call], ?_, by simp, by simp⟩
  exact List.forall_mem_append.2 ⟨hcalls, List.forall_mem_singleton.2 hcall⟩

/-- A step makes a call, or posts nothing. -/
theorem madeOf_step (h : w.MadeOf j.posts j.pauses) :
    w.MadeOf (w.step reactions d j).2.posts (w.step reactions d j).2.pauses := by
  unfold step
  split
  · split <;> exact h
  · split <;> exact h
  · split <;> exact h
  · exact h.append (.vision _ _ _)
  · exact h.append (.codegen _ _)
  · exact h
  · exact h

theorem madeOf_run (h : w.MadeOf j.posts j.pauses) :
    w.MadeOf (w.run reactions d j).2.posts (w.run reactions d j).2.pauses := by
  rw [run_eq_iterate]
  generalize stepsLeft j.stage = n
  induction n with
  | zero => exact h
  | succ n ih =>
    rw [Function.iterate_succ_apply']
    exact madeOf_step ih

/-- What all calls post holds of everything that was posted. -/
theorem MadeOf.forall_posts {P : Post → Prop} {posts : List Post} {pauses : List Span}
    (h : w.MadeOf posts pauses) (hP : ∀ call, w.Makes call → ∀ p ∈ call.posts, P p) :
    ∀ p ∈ posts, P p := by
  obtain ⟨calls, hcalls, rfl, -⟩ := h
  intro p hp
  obtain ⟨call, hcall, hp⟩ := List.mem_flatMap.1 hp
  exact hP call (hcalls call hcall) p hp

theorem MadeOf.forall_pauses {P : Span → Prop} {posts : List Post} {pauses : List Span}
    (h : w.MadeOf posts pauses) (hP : ∀ call, w.Makes call → ∀ p ∈ call.pauses, P p) :
    ∀ p ∈ pauses, P p := by
  obtain ⟨calls, hcalls, -, rfl⟩ := h
  intro p hp
  obtain ⟨call, hcall, hp⟩ := List.mem_flatMap.1 hp
  exact hP call (hcalls call hcall) p hp

/-! ### The stages of a run -/

theorem run_settled {outcome : Except Failure Product} (h : j.stage = .settled outcome) :
    (w.run reactions d j).2 = { j with stage := .done outcome } := by
  have hstep : w.step reactions d j =
      (Upload.release d (w.path j), { j with stage := .done outcome }) := by
    unfold step
    rw [h]
  rw [run_step, hstep, run_done rfl]

/-- What the code model's call comes to. -/
def codegenOutcome (w : Workshop) (description : String) :
    Except Model.Failure String → Except Failure Product
  | .ok completion => .ok (product description completion)
  | .error e => .error (w.codegenFailure e)

theorem step_described (reactions : Nat → Reaction) (d : Disk) {description : String}
    (h : j.stage = .described description) :
    let call := w.client.send (w.codegenRequest description) none fun n =>
      reactions (j.posts.length + n)
    w.step reactions d j =
      (d, j.after call (.settled (w.codegenOutcome description call.result))) := by
  intro call
  unfold step
  rw [h]
  dsimp only [Workshop.call, Job.after]
  cases call.result <;> rfl

theorem run_described (reactions : Nat → Reaction) {description : String}
    (h : j.stage = .described description) :
    let call := w.client.send (w.codegenRequest description) none fun n =>
      reactions (j.posts.length + n)
    (w.run reactions d j).2 = j.after call (.done (w.codegenOutcome description call.result)) := by
  intro call
  rw [run_step, step_described reactions d h]
  exact run_settled rfl

/-- What the vision model's call comes to. -/
def visionOutcome (w : Workshop) : Except Model.Failure String → Stage
  | .ok description => .described description
  | .error e => .settled (.error (w.visionFailure e))

theorem step_seen (reactions : Nat → Reaction) (d : Disk) {image : Option Bytes}
    (h : j.stage = .seen image) :
    let call := w.client.send (w.visionRequest (w.path j)) image fun n =>
      reactions (j.posts.length + n)
    w.step reactions d j = (d, j.after call (w.visionOutcome call.result)) := by
  intro call
  unfold step
  rw [h]
  dsimp only [Workshop.call, Job.after]
  cases call.result <;> rfl

theorem run_seen (reactions : Nat → Reaction) {image : Option Bytes} (h : j.stage = .seen image) :
    let call := w.client.send (w.visionRequest (w.path j)) image fun n =>
      reactions (j.posts.length + n)
    w.run reactions d j = w.run reactions d (j.after call (w.visionOutcome call.result)) := by
  intro call
  rw [run_step, step_seen reactions d h]

theorem step_stored (reactions : Nat → Reaction) {content : Bytes} (h : j.stage = .stored)
    (hread : d.read (w.path j) = .ok content) :
    w.step reactions d j = (d, { j with stage := .seen (some content) }) := by
  unfold step Client.image visionRequest
  rw [h]
  dsimp only
  rw [hread]

/-- What was stored is what the vision model is shown. -/
theorem run_received (reactions : Nat → Reaction) {path : String} {d' : Disk}
    (hj : j.stage = .received)
    (h : Upload.store d w.uploadDir j.uuid j.upload = (.ok path, d')) :
    w.run reactions d j = w.run reactions d' { j with stage := .seen (some j.upload.content) } := by
  obtain ⟨rfl, e, hhouse, hwrite⟩ := Upload.store_eq_ok h
  have hreceived : w.step reactions d j = (e, { j with stage := .housed }) := by
    unfold step
    rw [hj, hhouse]
  have hhoused : w.step reactions e { j with stage := .housed } =
      (d', { j with stage := .stored }) := by
    unfold step
    dsimp only [Workshop.path]
    rw [hwrite]
  have hread := Upload.read_of_store h
  have hstored : w.step reactions d' { j with stage := .stored } =
      (d', { j with stage := .seen (some j.upload.content) }) := step_stored reactions rfl hread
  rw [run_step, hreceived, run_step, hhoused, run_step, hstored]

end Workshop

end Mockup.Server
