import Mockup.Http.Cors
import Mockup.Http.Route
import Mockup.Server.Form
import Mockup.Server.Job

/-! The service. It tells at its root that it is there, takes designs and answers with components,
and says at a path of its own that it is well. -/

namespace Mockup

open Http Server

/-- A service that can be started. -/
structure Server where
  listenAddress : Network.SocketAddress
  bodyLimit : Nat
  workshop : Workshop
  /-- How long a post of the workshop may wait for its answer, if there is a limit. -/
  timeout : Option Span
  health : Option Route
  cors : Option Cors.Policy

namespace Server

/-! ### Building -/

/-- Why no service can be built from a configuration. -/
inductive BuildError where
  | flawed (flaw : Config.Flaw)
  | badHealthPath (error : RouteError)
  | badCors (error : Cors.PolicyError)
  deriving DecidableEq, Repr

def BuildError.message : BuildError → String
  | flawed flaw => flaw.message
  | badHealthPath error => error.message
  | badCors error => error.message

def rootPath : String := "/"

def generationPath : String := "/generate-code/"

/-- The pattern at which the service says that it is well. The root is taken. -/
def healthRoute (h : Config.Health) : Except RouteError (Option Route) :=
  if !h.enabled then .ok none
  else if h.path = rootPath then .error (.taken "GET" rootPath)
  else (Route.ofText h.path).map some

def corsPolicy (c : Config.Cors) : Except Cors.PolicyError Cors.Policy :=
  let policy := Cors.Policy.ofConfig c
  policy.check.map fun _ => policy

/-- The client of the model server, and how long its posts may wait. -/
structure Connection where
  client : Model.Client
  timeout : Option Span

def client (b : Config.Backend) : Except Config.Flaw Connection := do
  let delay ← b.retry.span
  let timeout ← b.timeoutSpan
  return ⟨.make b.baseUrl (.make b.retry.maxAttempts delay), timeout⟩

def build (c : Config) : Except BuildError Server := do
  let connection ← (client c.backend).mapError .flawed
  let health ← (healthRoute c.server.health).mapError .badHealthPath
  let cors ← (c.server.cors.mapM corsPolicy).mapError .badCors
  return {
    listenAddress := c.server.listenAddress
    bodyLimit := c.server.bodyLimit
    workshop := ⟨connection.client, c.pipeline, c.server.uploadDir⟩
    timeout := connection.timeout
    health := health
    cors := cors }

/-! ### Answering -/

/-- What is found at a path. -/
inductive Resource where
  | root | generation | health
  deriving DecidableEq, Repr

/-- The methods that a resource knows, in the order in which they are told. -/
def Resource.methods : Resource → List String
  | root | health => ["GET", "HEAD"]
  | generation => ["POST"]

/-- The resources at a path. The fixed paths go before the pattern; both may stand at one path. -/
def resources (s : Server) (path : String) : List Resource :=
  let fixed (route : Route) : Bool := route == generationPath.toList.map .char
  if path = rootPath then [.root]
  else if path = generationPath then
    .generation :: if s.health.any fixed then [.health] else []
  else if s.health.any (·.accepts path.toList) then [.health]
  else []

/-- What the world adds to a request: a fresh identifier, the stack at a failure, and what becomes
of the n-th attempt to post to the model server. -/
structure Occasion where
  uuid : String
  trace : String
  reactions : Nat → Model.Reaction

/-- An answer, what was posted for it, and the disk after it. -/
structure Exchange where
  response : Response
  disk : Disk
  posts : List Model.Post := []
  pauses : List Span := []

def jsonResponse (status : Nat) (j : Json) : Response :=
  ⟨status, [("content-type", "application/json")], j.write⟩

def greeting : Response :=
  jsonResponse 200 (.object [("message", .string "Backend is running!")])

def wellness : Response := ⟨200, [("content-type", "text/plain; charset=utf-8")], "ok"⟩

/-- The answer to what a request for a component came to. -/
def outcomeResponse (trace : String) : Except Failure Product → Response
  | .ok product => jsonResponse 200 product.json
  | .error failure => jsonResponse failure.statusCode (failure.json trace)

/-- Makes a component of the upload in a request. -/
def generation (s : Server) (o : Occasion) (d : Disk) (r : Request) : Exchange :=
  match Upload.ofRequest s.bodyLimit r with
  | .error e => ⟨outcomeResponse o.trace (.error (.upload e.message)), d, [], []⟩
  | .ok upload =>
    let (d, job) := s.workshop.run o.reactions d { uuid := o.uuid, upload := upload }
    let response := match job.outcome? with
      | some outcome => outcomeResponse o.trace outcome
      | none => ⟨500, [], ""⟩
    ⟨response, d, job.posts, job.pauses⟩

def withoutBody (r : Response) : Response := { r with body := "" }

/-- The answer of the resources at the path, before origins are looked at. -/
def dispatch (s : Server) (o : Occasion) (d : Disk) (r : Request) : Exchange :=
  let there := s.resources r.path
  let plain (answer : Response) : Exchange := { response := answer, disk := d }
  let got (answer : Response) : Exchange :=
    plain (if r.method = "HEAD" then withoutBody answer else answer)
  match there.find? fun resource => resource.methods.contains r.method with
  | some .root => got greeting
  | some .health => got wellness
  | some .generation => s.generation o d r
  | none =>
    if there.isEmpty then plain ⟨404, [], ""⟩
    else plain ⟨405, [("allow", String.intercalate "," (there.flatMap Resource.methods))], ""⟩

/-- The answer to a request. -/
def answer (s : Server) (o : Occasion) (d : Disk) (r : Request) : Exchange :=
  let exchange := s.dispatch o d r
  match s.cors with
  | none => exchange
  | some policy => { exchange with response := policy.apply r exchange.response }

end Server

end Mockup
