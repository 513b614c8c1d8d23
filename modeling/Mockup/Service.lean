import Mockup.CommandLine
import Mockup.Config.Load
import Mockup.Server
import Mockup.Telemetry.Filter

/-! One run of the program: the command line and the configuration are read, the service is built,
and it is up until it is told to stop. What the run tells about itself are events, of which the
filter of the configuration lets some through. -/

namespace Mockup.Service

open Telemetry

/-- Why the program ends before anything is told. -/
inductive Refusal where
  | usage (error : CommandLine.UsageError)
  | unloadable (error : Config.LoadError)
  | flawed (flaw : Config.Flaw)
  deriving DecidableEq, Repr

namespace Refusal

def message : Refusal → String
  | usage error => error.message
  | unloadable error => "Error: " ++ error.message ++ "\n"
  | flawed flaw => "Error: " ++ flaw.message ++ "\n"

/-- The exit code. -/
def code : Refusal → Nat
  | usage _ => 2
  | _ => 1

end Refusal

/-- What a command line and the files come to. -/
structure Setup where
  config : Config
  configPath : Option String

/-- Loads, overrides, and validates once more. -/
def configure (d : Disk) (o : CommandLine.Overrides) : Except Refusal Setup := do
  let loaded ← (Config.loadOrDefault d o.config).mapError .unloadable
  let config := o.apply loaded
  config.validate.mapError .flawed
  return ⟨config, o.config⟩

/-- What the program does. -/
inductive Plan where
  | help (text : String)
  | serve (setup : Setup)

def plan (environment : String → Option String) (arguments : List String) (d : Disk) :
    Except Refusal Plan := do
  match ← (CommandLine.read environment arguments).mapError .usage with
  | .help => return .help (CommandLine.help environment)
  | .run o => return .serve (← configure d o)

/-! ### Events -/

/-- The program itself. -/
def mainTarget : String := CommandLine.programName

/-- The part that answers requests. -/
def serverTarget : String := CommandLine.programName ++ "_server"

def starting (s : Setup) : Event where
  level := .info
  target := mainTarget
  message := "starting figura"
  fields := [("config_path", .text (s.configPath.getD "<defaults>")),
    ("ollama", .plain (String.ofList s.config.backend.baseUrl.text))]

def clientReady (s : Server) : Event where
  level := .debug
  target := serverTarget
  message := "model client ready"
  fields := [("endpoint", .text s.workshop.client.endpoint),
    ("vision", .plain s.workshop.pipeline.vision.model),
    ("codegen", .plain s.workshop.pipeline.codegen.model)]

/-- The address is the one that was bound. -/
def listening (address : String) : Event where
  level := .info
  target := serverTarget
  message := "server listening"
  fields := [("local_addr", .plain address)]

/-- What is told once the program is told to stop. -/
def stopping : List Event :=
  [{ level := .info, target := mainTarget, message := "shutdown signal received" },
   { level := .info, target := serverTarget, message := "graceful shutdown initiated" },
   { level := .info, target := mainTarget, message := "figura stopped" }]

/-- A run of the service: what is said about a filter that is not understood, what is told until it
is up and what after that, and whether it is told that it is up. A server that cannot be built ends
the run. -/
structure Session where
  format : Config.LogFormat
  warning : Option String
  opening : List Event
  closing : List Event
  announced : Bool
  server : Except Server.BuildError Server

/-- The run of a setup; `bound` tells the address that is bound for an address to listen at. -/
def session (bound : Network.SocketAddress → String) (s : Setup) : Session :=
  let telemetry := s.config.telemetry
  let (filter, warning) := Filter.ofTextOrFallback telemetry.filter
  let server := Server.build s.config
  let up := listening (bound s.config.server.listenAddress)
  let later := match server with
    | .ok server => [clientReady server, up]
    | .error _ => []
  { format := telemetry.format
    warning := warning
    opening := (starting s :: later).filter filter.tells
    closing := if later.isEmpty then [] else stopping.filter filter.tells
    announced := !later.isEmpty && filter.tells up
    server := server }

end Mockup.Service
