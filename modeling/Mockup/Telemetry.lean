import Mockup.Json.Writer
import Mockup.Text.Quoted

/-! What the service tells about itself: events with a level, the part of the service that they come
from, and some fields. An event is written as a line of text or as a JSON object. -/

namespace Mockup.Telemetry

/-- How important an event is, the most important first. -/
inductive Level where
  | error | warn | info | debug | trace
  deriving DecidableEq, Repr

namespace Level

/-- The number of levels up to this one. -/
def rank : Level → Nat
  | error => 1
  | warn => 2
  | info => 3
  | debug => 4
  | trace => 5

def name : Level → String
  | error => "ERROR"
  | warn => "WARN"
  | info => "INFO"
  | debug => "DEBUG"
  | trace => "TRACE"

end Level

/-- A field of an event. Texts are quoted; what has a form of its own is written as it is. -/
inductive Value where
  | text (s : String)
  | plain (s : String)
  deriving DecidableEq, Repr

structure Event where
  level : Level
  /-- The part of the service that tells it. -/
  target : String
  message : String
  fields : List (String × Value) := []
  deriving DecidableEq, Repr

namespace Event

/-- The names of all fields; the message is one. -/
def names (e : Event) : List String := "message" :: e.fields.map (·.1)

/-- The width of the widest name of a level. -/
def levelWidth : Nat := 5

def fieldText : String × Value → String
  | (name, .text s) => " " ++ name ++ "=" ++ Text.quoted s
  | (name, .plain s) => " " ++ name ++ "=" ++ s

/-- The event on a line, without the time. -/
def text (e : Event) : String :=
  String.ofList (List.replicate (levelWidth - e.level.name.length) ' ') ++ e.level.name ++ " " ++
    e.target ++ ": " ++ e.message ++ String.join (e.fields.map fieldText)

def fieldJson : String × Value → String × Json
  | (name, .text s) | (name, .plain s) => (name, .string s)

/-- The event as an object, without the time. -/
def json (e : Event) : Json :=
  .object [("level", .string e.level.name),
    ("fields", .object (("message", .string e.message) :: e.fields.map fieldJson)),
    ("target", .string e.target)]

end Event

end Mockup.Telemetry
