import Mockup.Network.Url
import Mockup.Span.Expression
import Mockup.Text.Blank

/-! The configuration of the service, its defaults, and what makes it usable. -/

namespace Mockup

open Number

/-- Every value, or those of a list. -/
inductive Allowed where
  | any
  | only (values : List String)
  deriving DecidableEq, Repr

namespace Config

/-- A line that says that the service is up. -/
structure Health where
  enabled : Bool := true
  path : String := "/health"

/-- Which pages of other origins may ask, and how. -/
structure Cors where
  origins : Allowed := .any
  methods : Allowed := .any
  headers : Allowed := .any
  credentials : Bool := true
  /-- Seconds for which an answer to a preflight request holds. -/
  maxAge : Option Nat := none

/-- The machine itself. -/
def defaultListenAddress : Network.SocketAddress := .v4 ⟨#v[127, 0, 0, 1]⟩ 8000

structure Server where
  listenAddress : Network.SocketAddress := defaultListenAddress
  uploadDir : String := "uploads"
  /-- The most bytes that the body of a request may have. -/
  bodyLimit : Nat := 32 * Number.twoTo 20
  health : Health := {}
  cors : Option Cors := some {}

structure Retry where
  maxAttempts : UInt32 := 3
  delay : String := "2s"

def defaultBaseUrl : Network.Url where
  scheme := "http".toList
  authority := some { host := .domain "localhost".toList, port := some 11434 }
  path := .segments [[]]

/-- The model server, and how patient the service is with it. -/
structure Backend where
  baseUrl : Network.Url := defaultBaseUrl
  timeout : Option String := none
  retry : Retry := {}

/-- The model of a stage, and its sampling temperature. -/
structure Stage where
  model : String
  temperature : Floating

/-- The temperature of so many tenths. -/
def tenths (n : Nat) : Floating := (⟨false, n, -1⟩ : Decimal).toFloating .single

structure Pipeline where
  vision : Stage := ⟨"llava", tenths 3⟩
  codegen : Stage := ⟨"codellama", tenths 2⟩

inductive LogFormat where
  | text | json
  deriving DecidableEq, Repr

structure Telemetry where
  filter : String := "info"
  format : LogFormat := .text

end Config

structure Config where
  server : Config.Server := {}
  backend : Config.Backend := {}
  pipeline : Config.Pipeline := {}
  telemetry : Config.Telemetry := {}

namespace Config

/-! ### Validation -/

/-- Why a configuration is unusable. -/
inductive Flaw where
  | noAttempts
  | badDuration (text : String) (cause : Span.ReadError)
  | blankModel (stage : String)
  | badTemperature (stage : String) (temperature : Floating)
  | noUploadDir
  | noBodyLimit
  deriving DecidableEq, Repr

def Flaw.message : Flaw → String
  | noAttempts => "ollama.retry.max_attempts must be at least 1"
  | badDuration text cause => "invalid duration '" ++ text ++ "': " ++ cause.message
  | blankModel stage => "pipeline." ++ stage ++ ".model must not be empty"
  | badTemperature stage t =>
    "pipeline." ++ stage ++ ".temperature must be between 0 and 2, got " ++
      String.ofList (t.text .single)
  | noUploadDir => "server.upload_dir must not be empty"
  | noBodyLimit => "server.body_limit must be greater than 0"

def duration (text : String) : Except Flaw Span :=
  match Span.ofText text with
  | .ok s => .ok s
  | .error e => .error (.badDuration text e)

def Retry.span (r : Retry) : Except Flaw Span := duration r.delay

def Backend.timeoutSpan (b : Backend) : Except Flaw (Option Span) :=
  match b.timeout with
  | none => .ok none
  | some text => (duration text).map some

def require (ok : Bool) (flaw : Flaw) : Except Flaw Unit := if ok then .ok () else .error flaw

def Stage.validate (name : String) (s : Stage) : Except Flaw Unit := do
  require (Text.hasContent s.model.toList) (.blankModel name)
  require (s.temperature.isBetweenZeroAnd 2) (.badTemperature name s.temperature)

def Backend.validate (b : Backend) : Except Flaw Unit := do
  require (b.retry.maxAttempts != 0) .noAttempts
  let _ ← b.retry.span
  let _ ← b.timeoutSpan

def Server.validate (s : Server) : Except Flaw Unit := do
  require (!s.uploadDir.isEmpty) .noUploadDir
  require (s.bodyLimit != 0) .noBodyLimit

/-- The first flaw, if there is one. -/
def validate (c : Config) : Except Flaw Unit := do
  c.backend.validate
  c.pipeline.vision.validate "vision"
  c.pipeline.codegen.validate "codegen"
  c.server.validate

end Config

end Mockup
