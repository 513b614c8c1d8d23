import Mathlib.Data.List.Basic
import Mockup.CommandLine
import Mockup.Proofs.Config.Decoding
import Mockup.Proofs.Config.Validation
import Mockup.Server

/-! Building the service. A configuration that was read and found usable builds, except where the
path of its health resource is no pattern of paths or is taken. -/

namespace Mockup

open Http

/-! ### Policies for other origins -/

namespace Http.Cors

theorem eq_star_of_toLower {c : Char} (h : c.toLower = '*') : c = '*' := by
  unfold Char.toLower at h
  split at h
  · rename_i hc
    have hval : (c.val + ('a'.val - 'A'.val)).toNat = '*'.val.toNat :=
      congrArg (fun d => d.val.toNat) h
    have hlow := UInt32.le_iff_toNat_le.1 hc.1
    have hhigh := UInt32.le_iff_toNat_le.1 hc.2
    have hshift : ('a'.val - 'A'.val).toNat = 32 := by decide
    have hstar : '*'.val.toNat = 42 := by decide
    have hA : 'A'.val.toNat = 65 := by decide
    have hZ : 'Z'.val.toNat = 90 := by decide
    rw [UInt32.toNat_add] at hval
    omega
  · exact h

theorem star_notMem_map_toLower {xs : List String} (h : "*" ∉ xs) :
    "*" ∉ xs.map fun x => x.map Char.toLower := by
  rw [List.mem_map]
  rintro ⟨x, hx, he⟩
  have hlist : x.toList.map Char.toLower = ['*'] := by
    rw [← String.toList_map, he]
    rfl
  obtain ⟨c, hc, hlower⟩ := List.map_eq_singleton_iff.1 hlist
  have hstar : x = "*" := by
    rw [← String.toList_inj, hc, eq_star_of_toLower hlower]
    rfl
  exact h (hstar ▸ hx)

/-- Items joined by commas make a star only if a star is the only item. -/
theorem listed_ne_star {xs : List String} (h : "*" ∉ xs) : listed xs ≠ some "*" := by
  match xs with
  | [] => simp [listed]
  | [x] => simpa [listed] using Ne.symm (List.ne_of_not_mem_cons h)
  | x :: y :: ys =>
    intro he
    have hcomma : ',' ∈ (String.intercalate "," (x :: y :: ys)).toList := by
      rw [String.intercalate_cons_cons]
      simp
    rw [Option.some.inj he] at hcomma
    exact absurd hcomma (by decide)

/-- No literal star is sent beside credentials. -/
def Grant.IsSafe (g : Grant) (credentials : Bool) : Prop :=
  credentials = true → g ≠ .fixed (some "*")

theorem wildcard_isSafe (credentials : Bool) (field : String) :
    (wildcard credentials field).IsSafe credentials := by
  rintro rfl
  simp [wildcard]

theorem check_eq_ok {p : Policy} (horigins : ∀ xs, p.origin = .oneOf xs → "*" ∉ xs)
    (horigin : p.origin.IsSafe p.credentials) (hmethods : p.methods.IsSafe p.credentials)
    (hfields : p.fields.IsSafe p.credentials) : p.check = .ok () := by
  have hand (g : Grant) (hg : g.IsSafe p.credentials) :
      (p.credentials && g == .fixed (some "*")) = false := by
    cases hc : p.credentials with
    | false => rfl
    | true => exact beq_eq_false_iff_ne.2 (hg hc)
  unfold Policy.check
  simp only [hand _ horigin, hand _ hmethods, hand _ hfields]
  cases ho : p.origin with
  | oneOf xs => simp [horigins xs ho]; rfl
  | fixed text => rfl
  | echo field => rfl

theorem star_notMem_tokens {xs : List String} (h : "*" ∉ xs) : "*" ∉ tokens xs :=
  fun hs => h (List.mem_of_mem_filter hs)

/-- Without a star in a list nothing is wrong with a policy. -/
theorem check_ofConfig {c : Config.Cors} (h : c.Starless) : (Policy.ofConfig c).check = .ok () := by
  obtain ⟨origins, methods, headers, credentials, maxAge⟩ := c
  obtain ⟨horigins, hmethods, hheaders⟩ := h
  refine check_eq_ok ?_ ?_ ?_ ?_
  · intro xs hxs hstar
    cases origins with
    | any => cases credentials <;> cases hxs
    | only ys =>
      cases hxs
      exact horigins (List.mem_of_mem_filter hstar)
  · cases origins with
    | any => exact wildcard_isSafe credentials _
    | only ys => exact fun _ h => (nomatch h)
  · cases methods with
    | any => exact wildcard_isSafe credentials _
    | only ys => exact fun _ h => listed_ne_star (star_notMem_tokens hmethods) (Grant.fixed.inj h)
  · cases headers with
    | any => exact wildcard_isSafe credentials _
    | only ys =>
      have hlower := star_notMem_map_toLower (star_notMem_tokens hheaders)
      exact fun _ h => listed_ne_star hlower (Grant.fixed.inj h)

end Http.Cors

/-! ### The service -/

namespace Server

variable {c : Config}

/-- A pattern of paths that the root does not take. -/
def IsUsablePath (path : String) : Prop := path ≠ rootPath ∧ ∃ route, Route.ofText path = .ok route

theorem healthRoute_eq_ok_iff (h : Config.Health) :
    (∃ route, healthRoute h = .ok route) ↔ (h.enabled = true → IsUsablePath h.path) := by
  unfold healthRoute IsUsablePath
  cases henabled : h.enabled with
  | false => simp
  | true =>
    by_cases hroot : h.path = rootPath
    · simp [hroot]
    · cases hroute : Route.ofText h.path with
      | ok route => simp [hroot, Except.map]
      | error e => simp [hroot, Except.map]

/-- Both spans of time are understood if validation found nothing wrong with them. -/
theorem client_of_validate (h : c.validate = .ok ()) : ∃ k, client c.backend = .ok k := by
  have hc := (Config.validate_eq_ok_iff c).1 h
  obtain ⟨delay, hdelay⟩ := hc.exists_span
  obtain ⟨timeout, htimeout⟩ := hc.exists_timeoutSpan
  refine ⟨⟨.make c.backend.baseUrl (.make c.backend.retry.maxAttempts delay), timeout⟩, ?_⟩
  rw [client, hdelay, htimeout]
  rfl

theorem corsPolicy_of_starless {x : Config.Cors} (h : x.Starless) :
    corsPolicy x = .ok (Http.Cors.Policy.ofConfig x) := by
  rw [corsPolicy, Http.Cors.check_ofConfig h]
  rfl

theorem mapM_corsPolicy (h : c.server.Starless) : ∃ p, c.server.cors.mapM corsPolicy = .ok p := by
  cases hc : c.server.cors with
  | none => exact ⟨none, rfl⟩
  | some x =>
    refine ⟨some (Http.Cors.Policy.ofConfig x), ?_⟩
    rw [Option.mapM_some, corsPolicy_of_starless (h x hc)]
    rfl

/-- Only the path of the health resource decides whether a usable configuration builds. -/
theorem build_eq_health (hv : c.validate = .ok ()) (hs : c.server.Starless) :
    ∃ f : Option Route → Server,
      build c = ((healthRoute c.server.health).mapError .badHealthPath).map f := by
  obtain ⟨k, hk⟩ := client_of_validate hv
  obtain ⟨p, hp⟩ := mapM_corsPolicy hs
  refine ⟨fun health => ⟨c.server.listenAddress, c.server.bodyLimit,
    ⟨k.client, c.pipeline, c.server.uploadDir⟩, k.timeout, health, p⟩, ?_⟩
  rw [build, hk, hp]
  cases healthRoute c.server.health <;> rfl

/-- A configuration that was read from a text and found usable, with or without settings overridden,
builds exactly when its health resource is off or has a path that is a pattern of paths and is not
taken. Nothing else stands in the way. -/
theorem build_ok_iff_health {text : String} (o : CommandLine.Overrides)
    (hc : Config.ofToml text = .ok c) (hv : (o.apply c).validate = .ok ()) :
    ((∃ s, build (o.apply c) = .ok s) ↔
      (c.server.health.enabled = true → IsUsablePath c.server.health.path)) ∧
    ∀ e, build (o.apply c) = .error e → ∃ r, e = .badHealthPath r := by
  have hread : c.server.Starless := Config.ofToml_starless hc
  have hs : (o.apply c).server.Starless := hread
  obtain ⟨f, hf⟩ := build_eq_health hv hs
  rw [hf, ← healthRoute_eq_ok_iff]
  change (_ ↔ ∃ route, healthRoute (o.apply c).server.health = .ok route) ∧ _
  cases healthRoute (o.apply c).server.health with
  | ok route => exact ⟨⟨fun _ => ⟨route, rfl⟩, fun _ => ⟨f route, rfl⟩⟩, fun e h => (nomatch h)⟩
  | error r =>
    refine ⟨⟨fun ⟨s, h⟩ => (nomatch h), fun ⟨route, h⟩ => (nomatch h)⟩, fun e h => ⟨r, ?_⟩⟩
    exact (Except.error.inj h).symm

/-- A text with a star in a list. -/
def sampleText : String := "[server.cors]\norigins = [\"http://a\", \"*\"]\n"

theorem build_sampleText :
    ∃ c, Config.ofToml sampleText = .ok c ∧ (CommandLine.Overrides.apply {} c).validate = .ok () ∧
      ∃ s, build (CommandLine.Overrides.apply {} c) = .ok s := by
  have hread : (Config.ofToml sampleText).toOption.any (fun c =>
      (CommandLine.Overrides.apply {} c).validate = .ok () ∧
        c.server.health.path ≠ rootPath ∧
        (Route.ofText c.server.health.path).toOption.any fun _ => true) = true := by
    decide +kernel
  obtain ⟨c, hc, hall⟩ := Except.exists_of_any hread
  obtain ⟨hv, hroot, hroute⟩ := of_decide_eq_true hall
  obtain ⟨route, hroute, -⟩ := Except.exists_of_any hroute
  exact ⟨c, hc, hv, (build_ok_iff_health {} hc hv).1.2 fun _ => ⟨hroot, route, hroute⟩⟩

/-- A text with a path that does not start at the root. -/
def relativeText : String := "[server.health]\npath = \"health\"\n"

/-- A usable configuration need not build. -/
theorem relative_health_path :
    ∃ c, Config.ofToml relativeText = .ok c ∧ c.validate = .ok () ∧
      build c = .error (.badHealthPath .relative) := by
  have hread : (Config.ofToml relativeText).toOption.any (fun c =>
      c.validate = .ok () ∧ healthRoute c.server.health = .error .relative) = true := by
    decide +kernel
  obtain ⟨c, hc, hall⟩ := Except.exists_of_any hread
  obtain ⟨hv, hhealth⟩ := of_decide_eq_true hall
  obtain ⟨f, hf⟩ := build_eq_health hv (Config.ofToml_starless hc)
  refine ⟨c, hc, hv, ?_⟩
  rw [hf, hhealth]
  rfl

end Server

end Mockup
