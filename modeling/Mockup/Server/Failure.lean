import Mockup.Json.Writer
import Mockup.Model.Failure

/-! Why a request for a component failed, and how that is told to the client: a message, the causes
below it, and for a failing model the stack at the time. -/

namespace Mockup.Server

inductive Failure where
  | upload (reason : String)
  | vision (model : String) (source : Model.Failure)
  | codegen (model : String) (source : Model.Failure)
  | internal (context : String) (causes : List String)
  deriving DecidableEq, Repr

/-- Lines after the first, each behind `margin`. -/
def indent (margin : String) (s : String) : String :=
  String.intercalate ("\n" ++ margin) (s.splitOn "\n")

/-- `s` behind as many spaces as it takes to fill `width`. -/
def padLeft (width : Nat) (s : String) : String :=
  String.ofList (List.replicate (width - s.length) ' ') ++ s

/-- A cause alone is indented; several are numbered from zero. -/
def causeLines (causes : List String) : List String :=
  match causes with
  | [] => []
  | [cause] => ["    " ++ indent "    " cause]
  | causes => causes.zipIdx.map fun (cause, n) =>
    padLeft 5 (toString n) ++ ": " ++ indent "       " cause

/-- A message and its causes, outermost first. -/
def chainText (message : String) (causes : List String) : String :=
  if causes.isEmpty then message
  else message ++ "\n\nCaused by:\n" ++ String.intercalate "\n" (causeLines causes)

namespace Failure

/-- The causes of a failing model, outermost first. -/
def modelCauses (source : Model.Failure) : List String := source.message :: source.cause?.toList

def message : Failure → String
  | upload reason => "invalid upload: " ++ reason
  | vision model _ => "error with vision model '" ++ model ++ "'"
  | codegen model _ => "error with code model '" ++ model ++ "'"
  | internal context _ => context

def statusCode : Failure → Nat
  | upload _ => 422
  | _ => 500

/-- The numbered causes of a failing model, and the stack. -/
def modelDetail (source : Model.Failure) (trace : String) : String :=
  "\n\nCaused by:" ++
    String.join ((modelCauses source).zipIdx.map fun (cause, n) =>
      "\n    " ++ toString n ++ ": " ++ cause) ++
    "\n\nStack backtrace:\n" ++ trace

/-- All that is known about a failure. -/
def detail (f : Failure) (trace : String) : String :=
  "Error: " ++ f.message ++
    match f with
    | upload _ => ""
    | vision _ source | codegen _ source => modelDetail source trace
    | internal context causes => "\n\n" ++ chainText context causes

def json (f : Failure) (trace : String) : Json := .object [("detail", .string (f.detail trace))]

end Failure

end Mockup.Server
