import Mockup.Config
import Mockup.Config.Decoder

/-! The sections of a configuration document: their fields in the order of declaration, each with
its decoder. -/

namespace Mockup.Config

open Decoder Number

/-- The items of a list up to the first star, if there is one, and what is behind it. -/
def scanAllowed (d : Dialect) : List Node → Except Fault (List String × Option (List Node))
  | [] => .ok ([], none)
  | n :: ns => do
    let s ← Decoder.text "a string" d n
    if s = "*" then return ([], some ns)
    let (ss, rest) ← scanAllowed d ns
    return (s :: ss, rest)

/-- A star, a text, or a list of texts, where one star stands for everything. What follows the star
is not looked at, but in JSON it may not be there. -/
def allowed : Decoder Allowed := fun d n =>
  match n.value with
  | .string s => .ok (if s = "*" then .any else .only [s])
  | .array ns => do
    match ← scanAllowed d ns with
    | (ss, none) => return .only ss
    | (_, some rest) =>
      if d = .json && !rest.isEmpty then throw ⟨n.extent, .tooLong ns.length⟩
      return .any
  | _ => mistyped n "\"*\" or array of strings"

def healthRecord : Record Health where
  name := "HealthConfig"
  defaults := {}
  fields := [
    .of "enabled" boolean fun h x => { h with enabled := x },
    .of "path" (text "a string") fun h x => { h with path := x }]

def corsRecord : Record Cors where
  name := "CorsConfig"
  defaults := {}
  fields := [
    .of "origins" allowed fun c x => { c with origins := x },
    .of "methods" allowed fun c x => { c with methods := x },
    .of "headers" allowed fun c x => { c with headers := x },
    .of "credentials" boolean fun c x => { c with credentials := x },
    .of "max_age" (optional (natural (twoTo 64) "u64")) fun c x => { c with maxAge := x }]

def serverRecord : Record Server where
  name := "ServerConfig"
  defaults := {}
  fields := [
    .of "listen_address" address fun s x => { s with listenAddress := x },
    .of "upload_dir" (text "path string") fun s x => { s with uploadDir := x },
    .of "body_limit" (natural (twoTo 64) "usize") fun s x => { s with bodyLimit := x },
    .of "health" healthRecord.decode fun s x => { s with health := x },
    .of "cors" (optional corsRecord.decode) fun s x => { s with cors := x }]

def retryRecord : Record Retry where
  name := "RetryConfig"
  defaults := {}
  fields := [
    .of "max_attempts" (natural (twoTo 32) "u32") fun r x => { r with maxAttempts := x.toUInt32 },
    .of "delay" (text "a string") fun r x => { r with delay := x }]

def backendRecord : Record Backend where
  name := "OllamaConfig"
  defaults := {}
  fields := [
    .of "base_url" url fun b x => { b with baseUrl := x },
    .of "timeout" (optional (text "a string")) fun b x => { b with timeout := x },
    .of "retry" retryRecord.decode fun b x => { b with retry := x }]

/-- Both fields of a stage must be given. -/
def stageRecord : Record Stage where
  name := "StageConfig"
  defaults := ⟨"", .nan⟩
  fields := [
    { Field.of "model" (text "a string") fun (s : Stage) x => { s with model := x } with
      required := true },
    { Field.of "temperature" single fun (s : Stage) x => { s with temperature := x } with
      required := true }]

def pipelineRecord : Record Pipeline where
  name := "PipelineConfig"
  defaults := {}
  fields := [
    .of "vision" stageRecord.decode fun p x => { p with vision := x },
    .of "codegen" stageRecord.decode fun p x => { p with codegen := x }]

def logFormats : List (String × LogFormat) := [("text", .text), ("json", .json)]

def telemetryRecord : Record Telemetry where
  name := "TelemetryConfig"
  defaults := {}
  fields := [
    .of "filter" (text "a string") fun t x => { t with filter := x },
    .of "format" (variant logFormats) fun t x => { t with format := x }]

def record : Record Config where
  name := "Config"
  defaults := {}
  fields := [
    .of "server" serverRecord.decode fun c x => { c with server := x },
    .of "ollama" backendRecord.decode fun c x => { c with backend := x },
    .of "pipeline" pipelineRecord.decode fun c x => { c with pipeline := x },
    .of "telemetry" telemetryRecord.decode fun c x => { c with telemetry := x }]

end Mockup.Config
