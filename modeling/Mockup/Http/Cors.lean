import Mockup.Config
import Mockup.Http

/-! Sharing answers with pages of other origins. Every answer says which origin may read it; a
preflight request, whose method is `OPTIONS`, is answered with the methods and the fields that may
be sent. With credentials a wildcard is not sent as such: what the request asks for is echoed. -/

namespace Mockup.Http.Cors

open Config

/-- The part of a header that says what is allowed: nothing, a fixed text, or an echo of a field of
the request. -/
inductive Grant where
  | fixed (text : Option String)
  | oneOf (origins : List String)
  | echo (field : String)
  deriving DecidableEq, Repr

def Grant.text? (g : Grant) (r : Request) : Option String :=
  match g with
  | fixed text => text
  | oneOf origins => (r.field? "origin").filter origins.contains
  | echo field => r.field? field

/-- A list with commas; nothing stands for an empty list. -/
def listed (xs : List String) : Option String :=
  if xs.isEmpty then none else some (String.intercalate "," xs)

structure Policy where
  origin : Grant
  methods : Grant
  fields : Grant
  credentials : Bool
  maxAge : Option Nat
  deriving DecidableEq, Repr

/-- The values of a list that may stand in a field are kept. -/
def sendable (xs : List String) : List String := xs.filter fun x => x.toList.all isValueChar

def tokens (xs : List String) : List String := xs.filter fun x => isToken x.toList

/-- A wildcard echoes a field of the request if there are credentials. -/
def wildcard (credentials : Bool) (field : String) : Grant :=
  if credentials then .echo field else .fixed (some "*")

def Policy.ofConfig (c : Config.Cors) : Policy where
  origin := match c.origins with
    | .any => wildcard c.credentials "origin"
    | .only xs => .oneOf (sendable xs)
  methods := match c.methods with
    | .any => wildcard c.credentials "access-control-request-method"
    | .only xs => .fixed (listed (tokens xs))
  fields := match c.headers with
    | .any => wildcard c.credentials "access-control-request-headers"
    | .only xs => .fixed (listed ((tokens xs).map fun x => x.map Char.toLower))
  credentials := c.credentials
  maxAge := c.maxAge

/-- Why a policy is refused. -/
inductive PolicyError where
  | listedWildcard
  | credentialsForAny (field : String)
  deriving DecidableEq, Repr

def PolicyError.message : PolicyError → String
  | listedWildcard =>
    "Wildcard origin (`*`) cannot be passed to `AllowOrigin::list`. Use `AllowOrigin::any()` instead"
  | credentialsForAny field =>
    "Invalid CORS configuration: Cannot combine `Access-Control-Allow-Credentials: true` with `" ++
      field ++ ": *`"

/-- A wildcard stands neither in a list of origins nor beside credentials. -/
def Policy.check (p : Policy) : Except PolicyError Unit := do
  let isAny (g : Grant) : Bool := g == .fixed (some "*")
  if let .oneOf origins := p.origin then
    if origins.contains "*" then throw .listedWildcard
  if p.credentials && isAny p.fields then
    throw (.credentialsForAny "Access-Control-Allow-Headers")
  if p.credentials && isAny p.methods then
    throw (.credentialsForAny "Access-Control-Allow-Methods")
  if p.credentials && isAny p.origin then
    throw (.credentialsForAny "Access-Control-Allow-Origin")

/-- A field that is sent only with a value. -/
def field (name : String) (value : Option String) : Fields := (value.map (name, ·)).toList

/-- The fields of every answer. -/
def Policy.answerFields (p : Policy) (r : Request) : Fields :=
  field "access-control-allow-origin" (p.origin.text? r) ++
  field "access-control-allow-credentials" (if p.credentials then some "true" else none) ++
  [("vary", "origin, access-control-request-method, access-control-request-headers")]

/-- The fields of an answer to a preflight request. -/
def Policy.preflightFields (p : Policy) (r : Request) : Fields :=
  p.answerFields r ++
  field "access-control-allow-methods" (p.methods.text? r) ++
  field "access-control-allow-headers" (p.fields.text? r) ++
  field "access-control-max-age" (p.maxAge.map toString)

def isPreflight (r : Request) : Bool := r.method == "OPTIONS"

/-- The answer under a policy, where `answer` is given without one. Of the answer to a preflight
request only the methods stay that the place knows. -/
def Policy.apply (p : Policy) (r : Request) (answer : Response) : Response :=
  if isPreflight r then
    ⟨200, answer.fields.filter (·.1 == "allow") ++ p.preflightFields r, ""⟩
  else { answer with fields := answer.fields ++ p.answerFields r }

end Mockup.Http.Cors
