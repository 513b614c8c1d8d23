import Mockup.Proofs.Json.Reading
import Mockup.Proofs.Server.Building
import Mockup.Proofs.Server.Job
import Mockup.Proofs.Server.Upload

/-! Making components. -/

namespace Mockup.Server

open Http

/-! ### From a request to its job -/

section Answer

variable {s : Server} {o : Occasion} {d : Disk} {r : Request} {u : Upload}

/-- The job of an upload. -/
def job (s : Server) (o : Occasion) (d : Disk) (u : Upload) : Job :=
  (s.workshop.run o.reactions d { uuid := o.uuid, upload := u }).2

theorem dispatch_generation (hm : r.method = "POST") (hp : r.path = generationPath) :
    s.dispatch o d r = s.generation o d r := by
  unfold dispatch resources
  rw [hm, hp, if_neg (by decide), if_pos rfl]
  rfl

theorem not_isPreflight (hm : r.method = "POST") : Cors.isPreflight r = false := by
  unfold Cors.isPreflight
  rw [hm]
  decide

/-- Sharing an answer with other pages changes neither its status nor its text. -/
theorem answer_generation (hm : r.method = "POST") (hp : r.path = generationPath) :
    (s.answer o d r).posts = (s.generation o d r).posts ∧
      (s.answer o d r).response.status = (s.generation o d r).response.status ∧
      (s.answer o d r).response.body = (s.generation o d r).response.body := by
  unfold answer
  rw [dispatch_generation hm hp]
  cases s.cors with
  | none => exact ⟨rfl, rfl, rfl⟩
  | some policy =>
    dsimp only [Cors.Policy.apply]
    rw [not_isPreflight hm]
    exact ⟨rfl, rfl, rfl⟩

theorem generation_of_upload {outcome : Except Failure Product}
    (hu : Upload.ofRequest s.bodyLimit r = .ok u) (h : (job s o d u).stage = .done outcome) :
    (s.generation o d r).posts = (job s o d u).posts ∧
      (s.generation o d r).response = outcomeResponse o.trace outcome := by
  unfold generation
  rw [hu]
  unfold job at h ⊢
  refine ⟨rfl, ?_⟩
  dsimp only [Job.outcome?]
  rw [h]

/-- Whatever is asked, it is answered with calls of the two models, or without any. -/
theorem madeOf_answer (s : Server) (o : Occasion) (d : Disk) (r : Request) :
    s.workshop.MadeOf (s.answer o d r).posts (s.answer o d r).pauses := by
  have hgeneration :
      s.workshop.MadeOf (s.generation o d r).posts (s.generation o d r).pauses := by
    unfold generation
    split
    · exact Workshop.madeOf_nil
    · exact Workshop.madeOf_run Workshop.madeOf_nil
  have hdispatch : s.workshop.MadeOf (s.dispatch o d r).posts (s.dispatch o d r).pauses := by
    unfold dispatch
    dsimp only
    split
    · exact Workshop.madeOf_nil
    · exact Workshop.madeOf_nil
    · exact hgeneration
    · split <;> exact Workshop.madeOf_nil
  unfold answer
  split <;> exact hdispatch

theorem url_of_mem_answer {p : Model.Post} (h : p ∈ (s.answer o d r).posts) :
    p.url = s.workshop.client.endpoint := by
  have hposts : ∀ p ∈ (s.answer o d r).posts, p.url = s.workshop.client.endpoint := by
    refine (madeOf_answer s o d r).forall_posts fun call hcall p hp => ?_
    cases hcall with
    | vision path image reactions =>
      obtain ⟨reaction, rfl⟩ := Model.Client.exists_of_mem_send hp
      rfl
    | codegen description reactions =>
      obtain ⟨reaction, rfl⟩ := Model.Client.exists_of_mem_send hp
      rfl
  exact hposts p h

end Answer

/-! ### What is answered -/

/-- The answer is a component, and says so in JSON. -/
def Gives (x : Exchange) (description completion : String) : Prop :=
  let component := Component.ofCompletion completion.toList
  x.response.status = 200 ∧
    Json.ofText? x.response.body = some (.object [("ui_description", .string description),
      ("angular_code", .object [("raw", .string completion),
        ("formatted", .string (.ofList component.formatted)),
        ("ts_file", .string (.ofList component.sources.logic)),
        ("html_file", .string (.ofList component.sources.markup)),
        ("scss_file", .string (.ofList component.sources.stylesheet))])])

/-- The answer is a failure of the service whose detail starts with the message. -/
def Fails (x : Exchange) (message : String) : Prop :=
  x.response.status = 500 ∧
    ∃ detail, Json.ofText? x.response.body = some (.object [("detail", .string detail)]) ∧
      ("Error: " ++ message).toList <+: detail.toList

theorem gives_of_product {x : Exchange} {trace description completion : String}
    (hstatus : x.response.status =
      (outcomeResponse trace (.ok (Workshop.product description completion))).status)
    (hbody : x.response.body =
      (outcomeResponse trace (.ok (Workshop.product description completion))).body) :
    Gives x description completion := by
  have hread : Json.Readable Json.maxOpen (Workshop.product description completion).json := by
    simp [Product.json, Json.Readable, Json.ReadableMembers, Json.maxOpen]
  refine ⟨hstatus, ?_⟩
  rw [hbody]
  refine (Json.ofText?_write hread).trans ?_
  simp [Product.json, Workshop.product, Component.ofCompletion]

theorem fails_of_failure {x : Exchange} {trace message : String} {f : Failure}
    (hstatus : x.response.status = (outcomeResponse trace (.error f)).status)
    (hbody : x.response.body = (outcomeResponse trace (.error f)).body)
    (hf : f.statusCode = 500) (hmessage : f.message = message) : Fails x message := by
  have hread : Json.Readable Json.maxOpen (f.json trace) := by
    simp [Failure.json, Json.Readable, Json.ReadableMembers, Json.maxOpen]
  refine ⟨hstatus.trans hf, f.detail trace, ?_, ?_⟩
  · rw [hbody]
    exact Json.ofText?_write hread
  · rw [← hmessage]
    unfold Failure.detail
    simp only [String.toList_append]
    exact List.prefix_append _ _

/-! ### The two calls of a job -/

def visionMessage (w : Workshop) : String :=
  "error with vision model '" ++ w.pipeline.vision.model ++ "'"

def codegenMessage (w : Workshop) : String :=
  "error with code model '" ++ w.pipeline.codegen.model ++ "'"

/-- The attempts of an exchange: `a` to ask the vision model, then `b` to ask the code model, when
each may be asked `budget` times. Each is asked until it is heard, and the code model only after the
vision model. In an attempt the same question is posted again where servers send it on to, ten times
at most. -/
structure Asks (w : Workshop) (budget : Nat) (u : Upload) (reactions : Nat → Model.Reaction)
    (a b : Nat) (x : Exchange) : Prop where
  vision_pos : 1 ≤ a
  vision_le : a ≤ budget
  vision_unheard : ∀ n, 1 ≤ n → n < a → (reactions n).said? = none
  vision_spent : (reactions a).said? = none → a = budget
  codegen_pos_iff : 1 ≤ b ↔ (reactions a).said? ≠ none
  codegen_le : b ≤ budget
  codegen_unheard : ∀ n, 1 ≤ n → n < b → (reactions (a + n)).said? = none
  codegen_spent : 1 ≤ b → (reactions (a + b)).said? = none → b = budget
  posts_eq : x.posts = (List.range' 1 a).map (fun n => w.visionPost u.content (reactions n)) ++
    (List.range' 1 b).map
      fun n => w.codegenPost ((reactions a).said?.getD "") (reactions (a + n))
  again_le : ∀ p ∈ x.posts, p.again.length ≤ Model.Reaction.maxHops

/-- The answer of an exchange: a component if both models were heard, and else a failure that names
the model that was not. -/
structure Tells (w : Workshop) (reactions : Nat → Model.Reaction) (a b : Nat) (x : Exchange) :
    Prop where
  status_iff : x.response.status = 200 ↔
    (reactions a).said? ≠ none ∧ (reactions (a + b)).said? ≠ none
  gives : ∀ description completion, (reactions a).said? = some description →
    (reactions (a + b)).said? = some completion → Gives x description completion
  fails_vision : (reactions a).said? = none → Fails x (visionMessage w)
  fails_codegen : (reactions a).said? ≠ none → (reactions (a + b)).said? = none →
    Fails x (codegenMessage w)

namespace Asks

variable {w : Workshop} {budget a b : Nat} {u : Upload} {reactions : Nat → Model.Reaction}
  {x : Exchange} {call call' : Model.Call}

/-- Only the vision model is asked. -/
theorem of_vision (ht : w.client.target?.isSome)
    (ha : w.client.Sends budget (w.visionBody u.content) reactions a call)
    (hnone : (reactions a).said? = none) (hx : x.posts = call.posts) :
    Asks w budget u reactions a 0 x where
  vision_pos := ha.pos
  vision_le := ha.le_budget
  vision_unheard n h₁ h₂ := by
    rw [← Model.Client.hears?_of_target ht]
    exact ha.unheard n h₁ h₂
  vision_spent h := ha.spent (by rwa [Model.Client.hears?_of_target ht])
  codegen_pos_iff := by simp [hnone]
  codegen_le := Nat.zero_le _
  codegen_unheard n h₁ h₂ := by omega
  codegen_spent h := by omega
  posts_eq := by
    rw [hx, ha.posts_eq, if_pos ht, List.range'_zero, List.map_nil, List.append_nil]
    rfl
  again_le := by
    rw [hx]
    exact ha.again_le

/-- Both models are asked. -/
theorem of_both (ht : w.client.target?.isSome)
    (ha : w.client.Sends budget (w.visionBody u.content) reactions a call)
    {description : String} (hsome : (reactions a).said? = some description)
    (hb : w.client.Sends budget (w.codegenBody description) (fun n => reactions (a + n)) b call')
    (hx : x.posts = call.posts ++ call'.posts) :
    Asks w budget u reactions a b x where
  vision_pos := ha.pos
  vision_le := ha.le_budget
  vision_unheard n h₁ h₂ := by
    rw [← Model.Client.hears?_of_target ht]
    exact ha.unheard n h₁ h₂
  vision_spent h := by
    rw [hsome] at h
    cases h
  codegen_pos_iff := by simp [hsome, hb.pos]
  codegen_le := hb.le_budget
  codegen_unheard n h₁ h₂ := by
    rw [← Model.Client.hears?_of_target ht]
    exact hb.unheard n h₁ h₂
  codegen_spent _ h := hb.spent (by rwa [Model.Client.hears?_of_target ht])
  posts_eq := by
    rw [hx, ha.posts_eq, hb.posts_eq, if_pos ht, if_pos ht, hsome]
    rfl
  again_le := by
    rw [hx]
    exact List.forall_mem_append.2 ⟨ha.again_le, hb.again_le⟩

theorem length_posts (h : Asks w budget u reactions a b x) : x.posts.length = a + b := by
  rw [h.posts_eq, List.length_append, List.length_map, List.length_map, List.length_range',
    List.length_range']

end Asks

namespace Tells

variable {w : Workshop} {a b : Nat} {reactions : Nat → Model.Reaction} {x : Exchange}
  {description completion : String}

theorem of_vision_failure (hnone : (reactions a).said? = none) (hx : Fails x (visionMessage w)) :
    Tells w reactions a b x where
  status_iff := by simp [hnone, hx.1]
  gives description completion h := by
    rw [hnone] at h
    cases h
  fails_vision _ := hx
  fails_codegen h := absurd hnone h

theorem of_codegen_failure (hsome : (reactions a).said? = some description)
    (hnone : (reactions (a + b)).said? = none) (hx : Fails x (codegenMessage w)) :
    Tells w reactions a b x where
  status_iff := by simp [hnone, hx.1]
  gives description completion _ h := by
    rw [hnone] at h
    cases h
  fails_vision h := by
    rw [hsome] at h
    cases h
  fails_codegen _ _ := hx

theorem of_product (hdescription : (reactions a).said? = some description)
    (hcompletion : (reactions (a + b)).said? = some completion)
    (hx : Gives x description completion) : Tells w reactions a b x where
  status_iff := by simp [hdescription, hcompletion, hx.1]
  gives description' completion' h h' := by
    rw [hdescription] at h
    rw [hcompletion] at h'
    cases h
    cases h'
    exact hx
  fails_vision h := by
    rw [hdescription] at h
    cases h
  fails_codegen _ h := by
    rw [hcompletion] at h
    cases h

end Tells

section Course

variable {s : Server} {o : Occasion} {d d' : Disk} {r : Request} {u : Upload} {path : String}

/-- The job of an upload that was stored is what becomes of it after the vision model's call. -/
theorem job_of_store (h : Upload.store d s.workshop.uploadDir o.uuid u = (.ok path, d')) :
    ∃ call a, s.workshop.client.Sends s.workshop.budget (s.workshop.visionBody u.content)
        o.reactions a call ∧
      job s o d u = (s.workshop.run o.reactions d'
        (Job.after { uuid := o.uuid, upload := u } call
          (s.workshop.visionOutcome call.result))).2 := by
  let j : Job := { uuid := o.uuid, upload := u }
  let seen : Job := { j with stage := .seen (some u.content) }
  obtain ⟨a, ha⟩ := s.workshop.exists_vision_sends (s.workshop.path j) u.content o.reactions
  refine ⟨_, a, ha, ?_⟩
  have hreceived : s.workshop.run o.reactions d j = s.workshop.run o.reactions d' seen :=
    Workshop.run_received (j := j) o.reactions rfl h
  have hseen := Workshop.run_seen (w := s.workshop) (d := d') (j := seen) o.reactions rfl
  have hshift : (fun n => o.reactions (seen.posts.length + n)) = o.reactions := by
    funext n
    exact congrArg o.reactions (Nat.zero_add n)
  rw [hshift] at hseen
  unfold job
  rw [hreceived, hseen]
  rfl

/-- A silent vision model ends the job. -/
theorem job_of_vision_failure {call : Model.Call} {e : Model.Failure}
    (hjob : job s o d u = (s.workshop.run o.reactions d'
        (Job.after { uuid := o.uuid, upload := u } call
          (s.workshop.visionOutcome call.result))).2)
    (he : call.result = .error e) :
    (job s o d u).posts = call.posts ∧
      (job s o d u).stage = .done (.error (s.workshop.visionFailure e)) := by
  rw [hjob, he, Workshop.run_settled rfl]
  exact ⟨rfl, rfl⟩

/-- A description goes to the code model. -/
theorem job_of_description {call : Model.Call} {description : String}
    (hjob : job s o d u = (s.workshop.run o.reactions d'
        (Job.after { uuid := o.uuid, upload := u } call
          (s.workshop.visionOutcome call.result))).2)
    (hd : call.result = .ok description) :
    ∃ call' b, s.workshop.client.Sends s.workshop.budget
        (s.workshop.codegenBody description)
        (fun n => o.reactions (call.posts.length + n)) b call' ∧
      (job s o d u).posts = call.posts ++ call'.posts ∧
      (job s o d u).stage = .done (s.workshop.codegenOutcome description call'.result) := by
  obtain ⟨b, hb⟩ := s.workshop.exists_codegen_sends description fun n =>
    o.reactions (call.posts.length + n)
  refine ⟨_, b, hb, ?_⟩
  rw [hjob, hd, Workshop.run_described o.reactions rfl]
  exact ⟨rfl, rfl⟩

/-- The answer to a request whose job is done. -/
theorem answer_of_job {outcome : Except Failure Product} (hm : r.method = "POST")
    (hp : r.path = generationPath) (hu : Upload.ofRequest s.bodyLimit r = .ok u)
    (h : (job s o d u).stage = .done outcome) :
    (s.answer o d r).posts = (job s o d u).posts ∧
      (s.answer o d r).response.status = (outcomeResponse o.trace outcome).status ∧
      (s.answer o d r).response.body = (outcomeResponse o.trace outcome).body := by
  obtain ⟨hposts, hstatus, hbody⟩ := answer_generation (s := s) (o := o) (d := d) hm hp
  obtain ⟨hjob, hresponse⟩ := generation_of_upload hu h
  rw [hposts, hstatus, hbody, hjob, hresponse]
  exact ⟨rfl, rfl, rfl⟩

/-- When posts go out, the models are asked one after the other. -/
theorem exists_course (ht : s.workshop.client.target?.isSome) (hm : r.method = "POST")
    (hp : r.path = generationPath) (hu : Upload.ofRequest s.bodyLimit r = .ok u)
    (h : Upload.store d s.workshop.uploadDir o.uuid u = (.ok path, d')) :
    ∃ a b, Asks s.workshop s.workshop.budget u o.reactions a b (s.answer o d r) ∧
      Tells s.workshop o.reactions a b (s.answer o d r) := by
  obtain ⟨call, a, ha, hjob⟩ := job_of_store h
  have hears (r : Model.Reaction) : s.workshop.client.hears? r = r.said? :=
    Model.Client.hears?_of_target ht r
  cases hvision : (o.reactions a).said? with
  | none =>
    obtain ⟨last, -, hresult⟩ := ha.result_of_unheard (by rw [hears, hvision])
    obtain ⟨hposts, hstage⟩ := job_of_vision_failure hjob hresult
    obtain ⟨hx, hstatus, hbody⟩ := answer_of_job hm hp hu hstage
    exact ⟨a, 0, .of_vision ht ha hvision (hx.trans hposts),
      .of_vision_failure hvision (fails_of_failure hstatus hbody rfl rfl)⟩
  | some description =>
    have hresult := ha.result_of_heard description (by rw [hears, hvision])
    obtain ⟨call', b, hb, hposts, hstage⟩ := job_of_description hjob hresult
    have hlen : call.posts.length = a := by
      rw [ha.posts_eq, if_pos ht, List.length_map, List.length_range']
    rw [hlen] at hb
    obtain ⟨hx, hstatus, hbody⟩ := answer_of_job hm hp hu hstage
    refine ⟨a, b, .of_both ht ha hvision hb (hx.trans hposts), ?_⟩
    cases hcodegen : (o.reactions (a + b)).said? with
    | none =>
      obtain ⟨last, -, hresult'⟩ := hb.result_of_unheard (by rw [hears, hcodegen])
      rw [hresult'] at hstatus hbody
      exact .of_codegen_failure hvision hcodegen (fails_of_failure hstatus hbody rfl rfl)
    | some completion =>
      have hresult' := hb.result_of_heard completion (by rw [hears, hcodegen])
      rw [hresult'] at hstatus hbody
      exact .of_product hvision hcodegen (gives_of_product hstatus hbody)

/-- When no posts go out, the vision model is not heard. -/
theorem answer_of_no_target (ht : s.workshop.client.target? = none) (hm : r.method = "POST")
    (hp : r.path = generationPath) (hu : Upload.ofRequest s.bodyLimit r = .ok u)
    (h : Upload.store d s.workshop.uploadDir o.uuid u = (.ok path, d')) :
    (s.answer o d r).posts = [] ∧ Fails (s.answer o d r) (visionMessage s.workshop) := by
  obtain ⟨call, a, ha, hjob⟩ := job_of_store h
  have hunheard : s.workshop.client.hears? (o.reactions a) = none := by
    unfold Model.Client.hears?
    rw [ht]
    rfl
  obtain ⟨last, -, hresult⟩ := ha.result_of_unheard hunheard
  obtain ⟨hposts, hstage⟩ := job_of_vision_failure hjob hresult
  obtain ⟨hx, hstatus, hbody⟩ := answer_of_job hm hp hu hstage
  refine ⟨?_, fails_of_failure hstatus hbody rfl rfl⟩
  rw [hx, hposts, ha.posts_eq, ht]
  rfl

/-! ### From a configuration -/

theorem build_eq_ok {c : Config} (h : build c = .ok s) :
    s.bodyLimit = c.server.bodyLimit ∧ ∃ delay, s.workshop =
      ⟨.make c.backend.baseUrl (.make c.backend.retry.maxAttempts delay), c.pipeline,
        c.server.uploadDir⟩ := by
  obtain ⟨client, hclient, h⟩ := Except.bind_eq_ok_iff.1 h
  obtain ⟨health, -, h⟩ := Except.bind_eq_ok_iff.1 h
  obtain ⟨cors, -, h⟩ := Except.bind_eq_ok_iff.1 h
  cases h
  obtain ⟨delay, -, hclient⟩ := Except.bind_eq_ok_iff.1 (Except.mapError_eq_ok_iff.1 hclient)
  obtain ⟨timeout, -, hclient⟩ := Except.bind_eq_ok_iff.1 hclient
  cases hclient
  exact ⟨rfl, delay, rfl⟩

/-- Posts to the endpoint under a base address go out. -/
def reaches (base : Network.Url) : Bool :=
  match Network.Url.ofText (Model.endpointUnder base.text).toList with
  | .ok u => Model.Client.isPostable u
  | .error _ => false

theorem target?_make (base : Network.Url) (p : Model.RetryPolicy) :
    (Model.Client.make base p).target?.isSome = reaches base := by
  dsimp only [Model.Client.target?, Model.Client.make, reaches]
  cases Network.Url.ofText (Model.endpointUnder base.text).toList with
  | error e => rfl
  | ok u => cases h : Model.Client.isPostable u <;> simp [h]

theorem target?_of_build {c : Config} (h : build c = .ok s) :
    s.workshop.client.target?.isSome = reaches c.backend.baseUrl := by
  obtain ⟨-, delay, hw⟩ := build_eq_ok h
  rw [hw]
  exact target?_make _ _

theorem budget_of_build {c : Config} (h : build c = .ok s) (hv : c.validate = .ok ()) :
    s.workshop.budget = c.backend.retry.maxAttempts.toNat := by
  obtain ⟨-, delay, hw⟩ := build_eq_ok h
  rw [hw]
  refine (Model.RetryPolicy.toNat_budget_make _ delay none).trans ?_
  exact Nat.max_eq_right ((Config.validate_eq_ok_iff c).1 hv).attempts

/-- An upload that the configuration's directory takes is kept by the service. -/
theorem store_of_build {c : Config} (h : build c = .ok s)
    (hstore : (Upload.store d c.server.uploadDir o.uuid u).1 = .ok path) :
    Upload.store d s.workshop.uploadDir o.uuid u =
      (.ok path, (Upload.store d s.workshop.uploadDir o.uuid u).2) := by
  obtain ⟨-, delay, hw⟩ := build_eq_ok h
  rw [hw, ← hstore]

/-- A request for a component whose upload is kept, and so read back, under a configuration that was
found usable. If posts go out, the vision model is asked until it is heard, in as many attempts as
the configuration allows at most, and then the code model in the same way; the answer is a component
if both were heard, and otherwise a failure that names the model that was not. If posts do not go
out, that is the vision model. -/
theorem answer_generates {c : Config} (hv : c.validate = .ok ()) (hb : build c = .ok s)
    (hm : r.method = "POST") (hp : r.path = generationPath)
    (hu : Upload.ofRequest c.server.bodyLimit r = .ok u)
    (h : (Upload.store d c.server.uploadDir o.uuid u).1 = .ok path) :
    ∃ delay, let w : Workshop := ⟨.make c.backend.baseUrl
        (.make c.backend.retry.maxAttempts delay), c.pipeline, c.server.uploadDir⟩
      (Upload.store d c.server.uploadDir o.uuid u).2.read path = .ok u.content ∧
      (reaches c.backend.baseUrl = true → ∃ a b,
        Asks w c.backend.retry.maxAttempts.toNat u o.reactions a b (s.answer o d r) ∧
          Tells w o.reactions a b (s.answer o d r)) ∧
      (reaches c.backend.baseUrl = false →
        (s.answer o d r).posts = [] ∧ Fails (s.answer o d r) (visionMessage w)) := by
  obtain ⟨hlimit, delay, hw⟩ := build_eq_ok hb
  have hstore := store_of_build hb h
  rw [← hlimit] at hu
  refine ⟨delay, Upload.read_of_store (Prod.ext h rfl), ?_⟩
  rw [← hw, ← budget_of_build hb hv, ← target?_of_build hb]
  refine ⟨fun ht => exists_course ht hm hp hu hstore, fun ht => ?_⟩
  have hnone := Option.isNone_iff_eq_none.1 (Option.isSome_eq_false_iff.1 ht)
  exact answer_of_no_target hnone hm hp hu hstore

end Course

/-! ### A design -/

/-- Every post is answered. -/
def kindOccasion : Occasion where
  uuid := "0"
  trace := ""
  reactions := fun _ => .answer 200 (some "text")

theorem answer_design :
    ∃ s delay, let c : Config := {}
      let w : Workshop := ⟨.make c.backend.baseUrl (.make c.backend.retry.maxAttempts delay),
        c.pipeline, c.server.uploadDir⟩
      c.validate = .ok () ∧ build c = .ok s ∧
      Upload.ofRequest c.server.bodyLimit designRequest = .ok design ∧
      (Upload.store {} c.server.uploadDir kindOccasion.uuid design).1 = .ok "uploads/0-a.png" ∧
      ∃ a b, Asks w 3 design kindOccasion.reactions a b
          (s.answer kindOccasion {} designRequest) ∧
        Tells w kindOccasion.reactions a b (s.answer kindOccasion {} designRequest) := by
  have hv : ({} : Config).validate = .ok () := by decide +kernel
  have hbuild : (build {}).toOption.any (fun _ => true) = true := by decide +kernel
  have hu : Upload.ofRequest ({} : Config).server.bodyLimit designRequest = .ok design :=
    ofRequest_design (by decide +kernel)
  have hstore : (Upload.store {} ({} : Config).server.uploadDir kindOccasion.uuid design).1 =
      .ok "uploads/0-a.png" := by
    decide +kernel
  have hreaches : reaches ({} : Config).backend.baseUrl = true := by decide +kernel
  obtain ⟨s, hb, -⟩ := Except.exists_of_any hbuild
  obtain ⟨delay, -, hcourse, -⟩ := answer_generates hv hb rfl (by decide) hu hstore
  exact ⟨s, delay, hv, hb, hu, hstore, hcourse hreaches⟩

/-! ### None or too many -/

/-- Under the configuration in a text, the design is parsed, kept and read back. -/
structure Admits (text : String) (o : Occasion) (c : Config) (s : Server) : Prop where
  reads : Config.ofToml text = .ok c
  usable : c.validate = .ok ()
  builds : build c = .ok s
  parses : Upload.ofRequest c.server.bodyLimit designRequest = .ok design
  keeps : (Upload.store {} c.server.uploadDir o.uuid design).1 = .ok "uploads/0-a.png"
  reads_back : (Upload.store {} c.server.uploadDir o.uuid design).2.read "uploads/0-a.png" =
    .ok design.content

/-- What is to be found out about a text to see that it admits the design. -/
def admits (text : String) (o : Occasion) (there : Bool) : Bool :=
  (Config.ofToml text).toOption.any fun c =>
    c.validate = .ok () ∧ (build c).toOption.any (fun _ => true) ∧
      designForm.toList.length ≤ c.server.bodyLimit ∧ c.backend.retry.maxAttempts = 3 ∧
      (Upload.store {} c.server.uploadDir o.uuid design).1 = .ok "uploads/0-a.png" ∧
      reaches c.backend.baseUrl = there

theorem exists_admits {text : String} {o : Occasion} {there : Bool}
    (h : admits text o there = true) :
    ∃ c s, Admits text o c s ∧ c.backend.retry.maxAttempts = 3 ∧
      s.workshop.client.target?.isSome = there := by
  obtain ⟨c, hc, hall⟩ := Except.exists_of_any h
  obtain ⟨hv, hbuild, hlong, hattempts, hstore, hreaches⟩ := of_decide_eq_true hall
  obtain ⟨s, hb, -⟩ := Except.exists_of_any hbuild
  exact ⟨c, s, ⟨hc, hv, hb, ofRequest_design hlong, hstore,
    Upload.read_of_store (Prod.ext hstore rfl)⟩, hattempts, (target?_of_build hb).trans hreaches⟩

/-- Where the body of an attempt was posted to. -/
def addresses (p : Model.Post) : List String := p.url :: p.again

/-- The posts of an exchange, each for itself, are a number within the budget for the vision model
and one for the code model. -/
def IsCounted (budget : Nat) (x : Exchange) : Prop :=
  ∃ a b, 1 ≤ a ∧ a ≤ budget ∧ b ≤ budget ∧ (x.posts.flatMap addresses).length = a + b

/-- A model server that is not asked over HTTP. -/
def ftpText : String := "[ollama]\nbase_url = \"ftp://h/\"\n"

/-- A host that no request can be addressed to. -/
def templateText : String := "[ollama]\nbase_url = \"http://\x7b\x7bhostname\x7d\x7d/\"\n"

/-- Every post is sent on three times before it is answered. -/
def sentOnOccasion : Occasion where
  uuid := "0"
  trace := ""
  reactions := fun _ => {
    hops := List.replicate 3 ⟨.temporary, "http://localhost:11434/api/generate"⟩
    ending := .answer 200 (some "text") }

theorem not_isCounted_of_no_target {text : String} (h : admits text kindOccasion false = true) :
    ∃ c s, Admits text kindOccasion c s ∧ ¬ IsCounted c.backend.retry.maxAttempts.toNat
      (s.answer kindOccasion {} designRequest) := by
  obtain ⟨c, s, hadmits, -, htarget⟩ := exists_admits h
  refine ⟨c, s, hadmits, fun ⟨a, b, hpos, _, _, hcount⟩ => ?_⟩
  rw [Option.isSome_eq_false_iff, Option.isNone_iff_eq_none] at htarget
  obtain ⟨hposts, -⟩ := answer_of_no_target htarget (r := designRequest) rfl (by decide)
    ((build_eq_ok hadmits.builds).1 ▸ hadmits.parses) (store_of_build hadmits.builds hadmits.keeps)
  rw [hposts, List.flatMap_nil, List.length_nil] at hcount
  omega

/-- Sent on three times, a post is made four times. -/
theorem length_addresses_sentOn {w : Workshop} {budget a b : Nat} {u : Upload} {x : Exchange}
    (h : Asks w budget u sentOnOccasion.reactions a b x) :
    (x.posts.flatMap addresses).length = 4 * (a + b) := by
  have hfour : ∀ p ∈ x.posts, (addresses p).length = 4 := by
    rw [h.posts_eq]
    refine List.forall_mem_append.2 ⟨?_, ?_⟩ <;> exact List.forall_mem_map.2 fun _ _ => rfl
  rw [List.length_flatMap, List.map_congr_left hfour, List.map_const', List.sum_replicate_nat,
    h.length_posts, Nat.mul_comm]

/-- A usable configuration may post nothing, and in two attempts more may be posted than six
attempts may take. -/
theorem not_isCounted :
    (∃ c s, Admits ftpText kindOccasion c s ∧ ¬ IsCounted c.backend.retry.maxAttempts.toNat
      (s.answer kindOccasion {} designRequest)) ∧
    (∃ c s, Admits templateText kindOccasion c s ∧ ¬ IsCounted c.backend.retry.maxAttempts.toNat
      (s.answer kindOccasion {} designRequest)) ∧
    ∃ c s, Admits "" sentOnOccasion c s ∧ ¬ IsCounted c.backend.retry.maxAttempts.toNat
      (s.answer sentOnOccasion {} designRequest) := by
  refine ⟨not_isCounted_of_no_target (by decide +kernel),
    not_isCounted_of_no_target (by decide +kernel), ?_⟩
  have hthere : admits "" sentOnOccasion true = true := by decide +kernel
  obtain ⟨c, s, hadmits, hattempts, htarget⟩ := exists_admits hthere
  refine ⟨c, s, hadmits, fun ⟨a', b', _, ha', hb', hcount⟩ => ?_⟩
  obtain ⟨a, b, hasks, -⟩ := exists_course htarget (r := designRequest) rfl (by decide)
    ((build_eq_ok hadmits.builds).1 ▸ hadmits.parses) (store_of_build hadmits.builds hadmits.keeps)
  have hvision := hasks.vision_pos
  have hsaid : (sentOnOccasion.reactions a).said? = some "text" := by
    dsimp only [sentOnOccasion]
    decide +kernel
  have hcodegen : 1 ≤ b := hasks.codegen_pos_iff.2 (by simp [hsaid])
  rw [length_addresses_sentOn hasks] at hcount
  have hbudget : c.backend.retry.maxAttempts.toNat = 3 := by rw [hattempts]; rfl
  omega

end Mockup.Server
