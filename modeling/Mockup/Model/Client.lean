import Mockup.Disk
import Mockup.Model.Completion
import Mockup.Model.Query
import Mockup.Model.Retry
import Mockup.Network.Uri
import Mockup.Network.Url.Reader

/-! Calls of a model server. A call reads its image, builds the body once, and posts it until an
answer is good or the budget is used up. What servers make of each post is given; where they send
the post on to, the HTTP client goes by itself. -/

namespace Mockup.Model

open Network

/-- The redirects that the HTTP client follows: 301, 302, 303, 307 and 308. -/
inductive Redirect where
  | moved | found | other | temporary | permanent
  deriving DecidableEq, Repr

/-- Whether the next address is sent the same post. Otherwise it is only asked for its page. -/
def Redirect.keepsPost : Redirect → Bool
  | temporary | permanent => true
  | moved | found | other => false

/-- A server sends the HTTP client on to an address. -/
structure Hop where
  redirect : Redirect
  address : String
  deriving DecidableEq, Repr

/-- How a post ends: without an answer, perhaps for a reason that only shows on the way, or with a
status and a body, which is missing when the answer breaks off. A redirect that leads nowhere is an
answer too. -/
inductive Ending where
  | silence
  | lost (reason : String)
  | answer (status : Nat) (body : Option String)
  deriving DecidableEq, Repr

/-- What becomes of a post: where servers send it on to, one after another, and its end. -/
structure Reaction where
  hops : List Hop := []
  ending : Ending
  deriving DecidableEq, Repr

/-- One attempt: where it is posted to, what, and where the HTTP client posts the same again because
it is sent there. -/
structure Post where
  url : String
  body : String
  again : List String := []
  deriving DecidableEq, Repr

/-- A call to make: an image is named by its path. -/
structure Request where
  model : String
  prompt : String
  image : Option String := none
  temperature : Number.Floating := defaultTemperature
  maxAttempts : Option UInt32 := none

structure Client where
  endpoint : String
  policy : RetryPolicy

/-- What a call came to: the posts that went out, the pauses between them, the completion. -/
structure Call where
  posts : List Post
  pauses : List Span
  result : Except Failure String

/-- The address that is posted to: the address of the server without the slashes at its end, and the
path of generation. -/
def endpointUnder (base : List Char) : String :=
  String.ofList ((base.reverse.dropWhile (· == '/')).reverse ++ "/api/generate".toList)

namespace Reaction

def silence : Reaction := { ending := .silence }

def answer (status : Nat) (body : Option String) : Reaction := { ending := .answer status body }

/-- How often the HTTP client follows after one post. -/
def maxHops : Nat := 10

/-- Where the post is made again. Once a redirect does not keep it, the rest is no post. -/
def again (r : Reaction) : List String :=
  ((r.hops.take maxHops).takeWhile (·.redirect.keepsPost)).map (·.address)

/-- What the HTTP client ends up with. Sent on once too often, it gives up where it is. -/
def heard (r : Reaction) : Ending :=
  match r.hops.drop (maxHops - 1) with
  | here :: _ :: _ => .lost ("error following redirect for url (" ++ here.address ++ ")")
  | _ => r.ending

end Reaction

namespace Ending

def isSuccess (status : Nat) : Bool := 200 ≤ status && status < 300

/-- The completion, or why there is none. An error page that breaks off is not shown. -/
def completion (silent : Failure) : Ending → Except Failure String
  | silence => .error silent
  | lost reason => .error (.connection reason)
  | answer status body =>
    if isSuccess status then
      match body with
      | some text => .ok (completionText text)
      | none => .error (.body "error decoding response body")
    else .error (.status status (body.getD "Unknown error"))

end Ending

namespace Client

def make (base : Url) (policy : RetryPolicy) : Client := ⟨endpointUnder base.text, policy⟩

/-- Posts go out over HTTP only, to what can be asked for. -/
def isPostable (u : Url) : Bool :=
  (u.scheme == "http".toList || u.scheme == "https".toList) && u.anonymous.isUri

/-- The address of the endpoint, if posts to it go out. -/
def target? (c : Client) : Option Url :=
  match Url.ofText c.endpoint.toList with
  | .ok u => if isPostable u then some u else none
  | .error _ => none

def failureAt (what : String) (u : Url) : Failure :=
  .connection (what ++ " for url (" ++ String.ofList u.anonymous.text ++ ")")

/-- Why a post gets no answer. -/
def silent (c : Client) : Failure :=
  match Url.ofText c.endpoint.toList with
  | .ok u => failureAt (if isPostable u then "error sending request" else "builder error") u
  | .error _ => .connection "builder error"

/-- The outcome of one attempt. -/
def receive (c : Client) (r : Reaction) : Except Failure String :=
  (if c.target?.isSome then r.heard else .silence).completion c.silent

/-- An attempt to post the body, and what becomes of it. -/
def post (c : Client) (body : String) (r : Reaction) : Post := ⟨c.endpoint, body, r.again⟩

/-- The bytes of the image that a request names. -/
def image (d : Disk) (r : Request) : Except Failure (Option Bytes) :=
  match r.image with
  | none => .ok none
  | some path =>
    match d.read path with
    | .ok bytes => .ok (some bytes)
    | .error e => .error (.image path e.message)

/-- The posts of a request, once its image is there. `reactions` says what becomes of the n-th
attempt, counted from one. -/
def send (c : Client) (r : Request) (image : Option Bytes) (reactions : Nat → Reaction) : Call :=
  let body := (Query.about r.model r.prompt r.temperature image).body
  let run := c.policy.run c.endpoint r.maxAttempts fun n => c.receive (reactions n)
  let posts :=
    if c.target?.isSome then run.attempts.map fun n => c.post body (reactions n.toNat) else []
  ⟨posts, run.pauses, run.result⟩

/-- One call: the image is read, then the request goes out. -/
def generate (c : Client) (d : Disk) (r : Request) (reactions : Nat → Reaction) : Call :=
  match image d r with
  | .error e => ⟨[], [], .error e⟩
  | .ok bytes => c.send r bytes reactions

end Client

end Mockup.Model
