import Mockup.Config.Schema
import Mockup.Proofs.Config.Layout

/-! The layouts of the sections of a configuration, and the tables and values of a configuration
document, each with its place. -/

namespace Mockup.Config

open Decoder Number

/-- A part that is kept as it is decoded. -/
def Column.of {σ α : Type} (name : String) (decode : Decoder α) (get : σ → α) (put : σ → α → σ)
    (h : ∀ s x, get (put s x) = x) : Column σ where
  name := name
  decode := decode
  get := get
  put := put
  get_put s _ := h s _

theorem natural_lt {bound n : Nat} {expected : String} {d : Dialect} {m : Node}
    (h : natural bound expected d m = .ok n) : n < bound := by
  unfold natural at h
  split at h
  · split_ifs at h with hi
    cases h
    omega
  · cases h

def healthLayout : Layout healthRecord where
  columns := [
    .of "enabled" boolean (·.enabled) (fun h x => { h with enabled := x }) fun _ _ => rfl,
    .of "path" (text "a string") (·.path) (fun h x => { h with path := x }) fun _ _ => rfl]
  fields_eq := rfl
  apart := by simp [Column.Apart, Column.of]

def corsLayout : Layout corsRecord where
  columns := [
    .of "origins" allowed (·.origins) (fun c x => { c with origins := x }) fun _ _ => rfl,
    .of "methods" allowed (·.methods) (fun c x => { c with methods := x }) fun _ _ => rfl,
    .of "headers" allowed (·.headers) (fun c x => { c with headers := x }) fun _ _ => rfl,
    .of "credentials" boolean (·.credentials) (fun c x => { c with credentials := x })
      fun _ _ => rfl,
    .of "max_age" (Decoder.optional (natural (twoTo 64) "u64")) (·.maxAge)
      (fun c x => { c with maxAge := x }) fun _ _ => rfl]
  fields_eq := rfl
  apart := by simp [Column.Apart, Column.of]

def serverLayout : Layout serverRecord where
  columns := [
    .of "listen_address" address (·.listenAddress) (fun s x => { s with listenAddress := x })
      fun _ _ => rfl,
    .of "upload_dir" (text "path string") (·.uploadDir) (fun s x => { s with uploadDir := x })
      fun _ _ => rfl,
    .of "body_limit" (natural (twoTo 64) "usize") (·.bodyLimit)
      (fun s x => { s with bodyLimit := x }) fun _ _ => rfl,
    .of "health" healthRecord.decode (·.health) (fun s x => { s with health := x })
      fun _ _ => rfl,
    .of "cors" (Decoder.optional corsRecord.decode) (·.cors) (fun s x => { s with cors := x })
      fun _ _ => rfl]
  fields_eq := rfl
  apart := by simp [Column.Apart, Column.of]

/-- The number of attempts is kept as one of 32 bits, and only such numbers are decoded. -/
def retryLayout : Layout retryRecord where
  columns := [
    { name := "max_attempts"
      decode := natural (twoTo 32) "u32"
      get r := r.maxAttempts.toNat
      put r x := { r with maxAttempts := x.toUInt32 }
      get_put _ h := UInt32.toNat_ofNat_of_lt' (natural_lt h) },
    .of "delay" (text "a string") (·.delay) (fun r x => { r with delay := x }) fun _ _ => rfl]
  fields_eq := rfl
  apart := by simp [Column.Apart, Column.of]

def backendLayout : Layout backendRecord where
  columns := [
    .of "base_url" url (·.baseUrl) (fun b x => { b with baseUrl := x }) fun _ _ => rfl,
    .of "timeout" (Decoder.optional (text "a string")) (·.timeout)
      (fun b x => { b with timeout := x }) fun _ _ => rfl,
    .of "retry" retryRecord.decode (·.retry) (fun b x => { b with retry := x }) fun _ _ => rfl]
  fields_eq := rfl
  apart := by simp [Column.Apart, Column.of]

def stageLayout : Layout stageRecord where
  columns := [
    { Column.of "model" (text "a string") Stage.model (fun s x => { s with model := x })
        fun _ _ => rfl with required := true },
    { Column.of "temperature" single Stage.temperature (fun s x => { s with temperature := x })
        fun _ _ => rfl with required := true }]
  fields_eq := rfl
  apart := by simp [Column.Apart, Column.of]

def pipelineLayout : Layout pipelineRecord where
  columns := [
    .of "vision" stageRecord.decode (·.vision) (fun p x => { p with vision := x }) fun _ _ => rfl,
    .of "codegen" stageRecord.decode (·.codegen) (fun p x => { p with codegen := x })
      fun _ _ => rfl]
  fields_eq := rfl
  apart := by simp [Column.Apart, Column.of]

def telemetryLayout : Layout telemetryRecord where
  columns := [
    .of "filter" (text "a string") (·.filter) (fun t x => { t with filter := x }) fun _ _ => rfl,
    .of "format" (variant logFormats) (·.format) (fun t x => { t with format := x })
      fun _ _ => rfl]
  fields_eq := rfl
  apart := by simp [Column.Apart, Column.of]

def layout : Layout record where
  columns := [
    .of "server" serverRecord.decode (·.server) (fun c x => { c with server := x }) fun _ _ => rfl,
    .of "ollama" backendRecord.decode (·.backend) (fun c x => { c with backend := x })
      fun _ _ => rfl,
    .of "pipeline" pipelineRecord.decode (·.pipeline) (fun c x => { c with pipeline := x })
      fun _ _ => rfl,
    .of "telemetry" telemetryRecord.decode (·.telemetry) (fun c x => { c with telemetry := x })
      fun _ _ => rfl]
  fields_eq := rfl
  apart := by simp [Column.Apart, Column.of]

/-! ### Names -/

theorem healthRecord_names : healthRecord.names = ["enabled", "path"] := rfl

theorem corsRecord_names :
    corsRecord.names = ["origins", "methods", "headers", "credentials", "max_age"] := rfl

theorem serverRecord_names :
    serverRecord.names = ["listen_address", "upload_dir", "body_limit", "health", "cors"] := rfl

theorem retryRecord_names : retryRecord.names = ["max_attempts", "delay"] := rfl

theorem backendRecord_names : backendRecord.names = ["base_url", "timeout", "retry"] := rfl

theorem stageRecord_names : stageRecord.names = ["model", "temperature"] := rfl

theorem pipelineRecord_names : pipelineRecord.names = ["vision", "codegen"] := rfl

theorem telemetryRecord_names : telemetryRecord.names = ["filter", "format"] := rfl

theorem record_names : record.names = ["server", "ollama", "pipeline", "telemetry"] := rfl

/-! ### Documents -/

/-- A table of a configuration document: where it stands, and the names that it may hold. -/
structure Section where
  path : List String
  names : List String

/-- The document itself. -/
def top : Section := ⟨[], ["server", "ollama", "pipeline", "telemetry"]⟩

def sections : List Section := [
  ⟨["server"], ["listen_address", "upload_dir", "body_limit", "health", "cors"]⟩,
  ⟨["server", "health"], ["enabled", "path"]⟩,
  ⟨["server", "cors"], ["origins", "methods", "headers", "credentials", "max_age"]⟩,
  ⟨["ollama"], ["base_url", "timeout", "retry"]⟩,
  ⟨["ollama", "retry"], ["max_attempts", "delay"]⟩,
  ⟨["pipeline"], ["vision", "codegen"]⟩,
  ⟨["pipeline", "vision"], ["model", "temperature"]⟩,
  ⟨["pipeline", "codegen"], ["model", "temperature"]⟩,
  ⟨["telemetry"], ["filter", "format"]⟩]

/-- A value that a document may set: where it stands, how it is decoded, and what it is in a
configuration. Where there is no policy for other origins, its values are not there. -/
structure Setting where
  {α : Type}
  path : List String
  decode : Decoder α
  get : Config → Option α

def settings : List Setting := [
  ⟨["server", "listen_address"], address, fun c => some c.server.listenAddress⟩,
  ⟨["server", "upload_dir"], text "path string", fun c => some c.server.uploadDir⟩,
  ⟨["server", "body_limit"], natural (twoTo 64) "usize", fun c => some c.server.bodyLimit⟩,
  ⟨["server", "health", "enabled"], boolean, fun c => some c.server.health.enabled⟩,
  ⟨["server", "health", "path"], text "a string", fun c => some c.server.health.path⟩,
  ⟨["server", "cors", "origins"], allowed, fun c => c.server.cors.map (·.origins)⟩,
  ⟨["server", "cors", "methods"], allowed, fun c => c.server.cors.map (·.methods)⟩,
  ⟨["server", "cors", "headers"], allowed, fun c => c.server.cors.map (·.headers)⟩,
  ⟨["server", "cors", "credentials"], boolean, fun c => c.server.cors.map (·.credentials)⟩,
  ⟨["server", "cors", "max_age"], Decoder.optional (natural (twoTo 64) "u64"),
    fun c => c.server.cors.map (·.maxAge)⟩,
  ⟨["ollama", "base_url"], url, fun c => some c.backend.baseUrl⟩,
  ⟨["ollama", "timeout"], Decoder.optional (text "a string"), fun c => some c.backend.timeout⟩,
  ⟨["ollama", "retry", "max_attempts"], natural (twoTo 32) "u32",
    fun c => some c.backend.retry.maxAttempts.toNat⟩,
  ⟨["ollama", "retry", "delay"], text "a string", fun c => some c.backend.retry.delay⟩,
  ⟨["pipeline", "vision", "model"], text "a string", fun c => some c.pipeline.vision.model⟩,
  ⟨["pipeline", "vision", "temperature"], single, fun c => some c.pipeline.vision.temperature⟩,
  ⟨["pipeline", "codegen", "model"], text "a string", fun c => some c.pipeline.codegen.model⟩,
  ⟨["pipeline", "codegen", "temperature"], single,
    fun c => some c.pipeline.codegen.temperature⟩,
  ⟨["telemetry", "filter"], text "a string", fun c => some c.telemetry.filter⟩,
  ⟨["telemetry", "format"], variant logFormats, fun c => some c.telemetry.format⟩]

/-- The settings are all there is to a configuration. -/
theorem eq_of_settings {c c' : Config} (h : ∀ s ∈ settings, s.get c = s.get c') : c = c' := by
  obtain ⟨⟨a, u, b, ⟨e, p⟩, k⟩, ⟨l, t, ⟨m, w⟩⟩, ⟨⟨vm, vt⟩, ⟨cm, ct⟩⟩, ⟨f, g⟩⟩ := c
  obtain ⟨⟨a', u', b', ⟨e', p'⟩, k'⟩, ⟨l', t', ⟨m', w'⟩⟩, ⟨⟨vm', vt'⟩, ⟨cm', ct'⟩⟩, ⟨f', g'⟩⟩ := c'
  simp only [settings, List.forall_mem_cons, Option.some.injEq, UInt32.toNat_inj,
    List.not_mem_nil, false_implies, implies_true, and_true] at h
  obtain ⟨rfl, rfl, rfl, rfl, rfl, ho, hm, hh, hc, ha, rfl, rfl, rfl, rfl, rfl, rfl, rfl, rfl, rfl,
    rfl⟩ := h
  have hk : k = k' := by
    cases k <;> cases k'
    · rfl
    · cases ho
    · cases ho
    · rename_i k k'
      obtain ⟨o, m, h, c, a⟩ := k
      obtain ⟨o', m', h', c', a'⟩ := k'
      cases ho; cases hm; cases hh; cases hc; cases ha
      rfl
  rw [hk]

end Mockup.Config
