import Mathlib.Data.List.Basic
import Mockup.Proofs.Server.Building

/-! What answers tell pages of other origins. Whatever lists a configuration holds, no answer is
open to everyone and carries credentials, and a list of origins lets in the listed ones only. -/

namespace Mockup

open Http

namespace Http

/-- The values of all fields of that name. -/
def valuesOf (fs : Fields) (name : String) : List String :=
  (fs.filter (·.1 == name)).map (·.2)

variable {fs gs : Fields} {name : String}

@[simp] theorem valuesOf_append (fs gs : Fields) (name : String) :
    valuesOf (fs ++ gs) name = valuesOf fs name ++ valuesOf gs name := by
  rw [valuesOf, List.filter_append, List.map_append, valuesOf, valuesOf]

theorem valuesOf_eq_nil (h : ∀ f ∈ fs, f.1 ≠ name) : valuesOf fs name = [] := by
  rw [valuesOf, List.map_eq_nil_iff, List.filter_eq_nil_iff]
  simpa using h

theorem valuesOf_filter_ne {p : String} (h : p ≠ name) :
    valuesOf (fs.filter (·.1 == p)) name = [] :=
  valuesOf_eq_nil fun f hf hname => by
    have hp : f.1 = p := by simpa using (List.mem_filter.1 hf).2
    exact h (hp.symm.trans hname)

namespace Cors

@[simp] theorem valuesOf_field (n : String) (value : Option String) (name : String) :
    valuesOf (field n value) name = if n = name then value.toList else [] := by
  cases value with
  | none => simp [field, valuesOf]
  | some v => by_cases h : n = name <;> simp [field, valuesOf, h]

/-- The field that tells which origin may read an answer. -/
def originField : String := "access-control-allow-origin"

/-- The field that tells whether it may be asked for with credentials. -/
def credentialsField : String := "access-control-allow-credentials"

/-- Nothing but the policy fills the two fields. -/
theorem valuesOf_apply (p : Policy) (r : Request) (answer : Response)
    (horigin : valuesOf answer.fields originField = [])
    (hcredentials : valuesOf answer.fields credentialsField = []) :
    valuesOf (p.apply r answer).fields originField = (p.origin.text? r).toList ∧
      valuesOf (p.apply r answer).fields credentialsField =
        if p.credentials then ["true"] else [] := by
  have hvary (name : String) (h : "vary" ≠ name) (v : String) :
      valuesOf [("vary", v)] name = [] :=
    valuesOf_eq_nil fun f hf => by rwa [List.mem_singleton.1 hf]
  have hanswer : valuesOf (p.answerFields r) originField = (p.origin.text? r).toList ∧
      valuesOf (p.answerFields r) credentialsField = if p.credentials then ["true"] else [] := by
    unfold Policy.answerFields
    rw [valuesOf_append, valuesOf_append, valuesOf_append, valuesOf_append,
      hvary originField (by decide), hvary credentialsField (by decide)]
    cases p.credentials <;> simp [originField, credentialsField]
  unfold Policy.apply
  split
  · unfold Policy.preflightFields
    simp only [valuesOf_append, valuesOf_field, hanswer.1, hanswer.2,
      valuesOf_filter_ne (show "allow" ≠ originField by decide),
      valuesOf_filter_ne (show "allow" ≠ credentialsField by decide)]
    simp [originField, credentialsField]
  · simp only [valuesOf_append, horigin, hcredentials, hanswer.1, hanswer.2, List.nil_append,
      and_self]

/-- What the two fields of an answer tell, and to whom. -/
structure Shares (c : Config.Cors) (r : Request) (fs : Fields) : Prop where
  /-- An answer is not open to everyone when it may be asked for with credentials. -/
  not_open : ¬ ("*" ∈ valuesOf fs originField ∧ "true" ∈ valuesOf fs credentialsField)
  of_list : ∀ xs, c.origins = .only xs →
    ∀ v ∈ valuesOf fs originField, r.field? "origin" = some v ∧ v ∈ xs
  /-- The listed origins are answered, those apart that cannot stand in a field. -/
  to_listed : ∀ xs, c.origins = .only xs → ∀ v ∈ xs, v.toList.all isValueChar = true →
    r.field? "origin" = some v → valuesOf fs originField = [v]
  echoed : c.origins = .any → c.credentials = true →
    valuesOf fs originField = (r.field? "origin").toList
  literal : c.origins = .any → c.credentials = false → valuesOf fs originField = ["*"]

theorem ofConfig_origin (c : Config.Cors) (r : Request) :
    (Policy.ofConfig c).origin.text? r = match c.origins with
      | .any => if c.credentials then r.field? "origin" else some "*"
      | .only xs => (r.field? "origin").filter (sendable xs).contains := by
  unfold Policy.ofConfig
  cases c.origins with
  | any => cases h : c.credentials <;> simp [wildcard, Grant.text?]
  | only xs => rfl

/-- A policy without a star in its list of origins tells the right thing. -/
theorem shares_of_starless {c : Config.Cors} {r : Request} {fs : Fields}
    (hc : Config.Starless c.origins) (hr : r.field? "origin" ≠ some "*")
    (horigin : valuesOf fs originField = ((Policy.ofConfig c).origin.text? r).toList)
    (hcredentials : valuesOf fs credentialsField = if c.credentials then ["true"] else []) :
    Shares c r fs := by
  rw [ofConfig_origin] at horigin
  obtain ⟨origins, methods, headers, credentials, maxAge⟩ := c
  cases origins with
  | any =>
    refine ⟨?_, fun xs h => (nomatch h), fun xs h => (nomatch h), fun _ hcred => ?_,
      fun _ hcred => ?_⟩
    · rintro ⟨hstar, htrue⟩
      cases credentials with
      | true => exact hr (Option.mem_toList.1 (horigin ▸ hstar))
      | false =>
        rw [hcredentials] at htrue
        cases htrue
    · obtain rfl : credentials = true := hcred
      exact horigin
    · obtain rfl : credentials = false := hcred
      exact horigin
  | only ys =>
    dsimp only at horigin hc
    have hlist : ∀ v ∈ valuesOf fs originField, r.field? "origin" = some v ∧ v ∈ ys := by
      intro v hv
      rw [horigin, Option.mem_toList, Option.filter_eq_some_iff] at hv
      exact ⟨hv.1, List.mem_of_mem_filter (List.contains_iff_mem.1 hv.2)⟩
    refine ⟨fun ⟨hstar, _⟩ => hc (hlist _ hstar).2, ?_, ?_, fun h => (nomatch h),
      fun h => (nomatch h)⟩
    · rintro _ ⟨⟩
      exact hlist
    · rintro _ ⟨⟩ v hv hchars hfield
      have hmem : (sendable ys).contains v = true :=
        List.contains_iff_mem.2 (List.mem_filter.2 ⟨hv, hchars⟩)
      rw [horigin, hfield, Option.filter_some, if_pos hmem]
      rfl

end Cors

end Http

namespace Server

variable {c : Config} {s : Server}

/-- Before origins are looked at, an answer tells its type and the methods of its place only. -/
theorem dispatch_fields (s : Server) (o : Occasion) (d : Disk) (r : Request) :
    ∀ f ∈ (s.dispatch o d r).response.fields, f.1 = "content-type" ∨ f.1 = "allow" := by
  have houtcome (outcome : Except Failure Product) :
      ∀ f ∈ (outcomeResponse o.trace outcome).fields, f.1 = "content-type" ∨ f.1 = "allow" := by
    cases outcome <;> simp [outcomeResponse, jsonResponse]
  have hgeneration :
      ∀ f ∈ (s.generation o d r).response.fields, f.1 = "content-type" ∨ f.1 = "allow" := by
    unfold generation
    cases Upload.ofRequest s.bodyLimit r with
    | error e => exact houtcome _
    | ok u =>
      dsimp only
      split
      · exact houtcome _
      · exact List.forall_mem_nil _
  unfold dispatch
  dsimp only
  split
  · split <;> simp [greeting, jsonResponse, withoutBody]
  · split <;> simp [wellness, withoutBody]
  · exact hgeneration
  · split <;> simp

theorem build_cors {c : Config} (h : build c = .ok s) :
    c.server.cors.mapM corsPolicy = .ok s.cors := by
  obtain ⟨client, -, h⟩ := Except.bind_eq_ok_iff.1 h
  obtain ⟨health, -, h⟩ := Except.bind_eq_ok_iff.1 h
  obtain ⟨cors, hcors, h⟩ := Except.bind_eq_ok_iff.1 h
  cases h
  exact Except.mapError_eq_ok_iff.1 hcors

/-- No configuration that was read from a text is refused for what it says of other origins, and
the answers of the service that is built tell those what the configuration says: nobody shares what
is asked for with credentials except the origin that asks. -/
theorem answers_share_safely {text : String} {x : Config.Cors} (hc : Config.ofToml text = .ok c)
    (hx : c.server.cors = some x) :
    (∀ e, build c ≠ .error (.badCors e)) ∧
      ∀ s, build c = .ok s → ∀ o d r, r.field? "origin" ≠ some "*" →
        Cors.Shares x r (s.answer o d r).response.fields := by
  have hstarless : x.Starless := Config.ofToml_starless hc x hx
  have hcors : c.server.cors.mapM corsPolicy = .ok (some (Cors.Policy.ofConfig x)) := by
    rw [hx, Option.mapM_some, corsPolicy_of_starless hstarless]
    rfl
  refine ⟨fun e h => ?_, fun s hs o d r hr => ?_⟩
  · unfold build at h
    rw [hcors] at h
    cases hclient : client c.backend with
    | error e => rw [hclient] at h; cases h
    | ok k =>
      rw [hclient] at h
      cases hhealth : healthRoute c.server.health with
      | error e => rw [hhealth] at h; cases h
      | ok route => rw [hhealth] at h; cases h
  · have hpolicy : s.cors = some (Cors.Policy.ofConfig x) :=
      (Except.ok.inj (hcors.symm.trans (build_cors hs))).symm
    have hplain (name : String) (hn : "content-type" ≠ name) (hn' : "allow" ≠ name) :
        valuesOf (s.dispatch o d r).response.fields name = [] :=
      valuesOf_eq_nil fun f hf hname => by
        rcases dispatch_fields s o d r f hf with h | h
        · exact hn (h.symm.trans hname)
        · exact hn' (h.symm.trans hname)
    have hvalues := Cors.valuesOf_apply (Cors.Policy.ofConfig x) r (s.dispatch o d r).response
      (hplain _ (by decide) (by decide)) (hplain _ (by decide) (by decide))
    have hanswer : (s.answer o d r).response =
        (Cors.Policy.ofConfig x).apply r (s.dispatch o d r).response := by
      unfold answer
      rw [hpolicy]
    rw [hanswer]
    exact Cors.shares_of_starless hstarless.1 hr hvalues.1 hvalues.2

/-- A list of origins, one of which cannot stand in a field. -/
def sharedText : String := "[server.cors]\norigins = [\"http://a\", \"\\u0001\"]\n"

theorem answers_share_safely_sharedText :
    let r : Request := ⟨"GET", "/", [("Origin", "http://a")], []⟩
    ∃ c x s, Config.ofToml sharedText = .ok c ∧ c.server.cors = some x ∧ build c = .ok s ∧
      r.field? "origin" ≠ some "*" ∧
      ∀ o d, Cors.Shares x r (s.answer o d r).response.fields := by
  intro r
  have hread : (Config.ofToml sharedText).toOption.any (fun c =>
      c.validate = .ok () ∧ c.server.cors.isSome ∧ c.server.health.path ≠ rootPath ∧
        (Route.ofText c.server.health.path).toOption.any fun _ => true) = true := by
    decide +kernel
  obtain ⟨c, hc, hall⟩ := Except.exists_of_any hread
  obtain ⟨hv, hcors, hroot, hroute⟩ := of_decide_eq_true hall
  obtain ⟨x, hx⟩ := Option.isSome_iff_exists.1 hcors
  obtain ⟨route, hroute, -⟩ := Except.exists_of_any hroute
  obtain ⟨health, hhealth⟩ :=
    (healthRoute_eq_ok_iff c.server.health).2 fun _ => ⟨hroot, route, hroute⟩
  obtain ⟨f, hf⟩ := build_eq_health hv (Config.ofToml_starless hc)
  have hs : build c = .ok (f health) := by
    rw [hf, hhealth]
    rfl
  have hr : r.field? "origin" ≠ some "*" := by decide +kernel
  exact ⟨c, x, f health, hc, hx, hs, hr,
    fun o d => (answers_share_safely hc hx).2 _ hs o d r hr⟩

end Server

end Mockup
