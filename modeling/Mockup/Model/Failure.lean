/-! What can go wrong in asking a model. Failures of the transport and of the server may pass, so
another attempt is worth making; the others stay. -/

namespace Mockup.Model

inductive Failure where
  | image (path cause : String)
  | client (reason : String)
  | connection (reason : String)
  | status (code : Nat) (text : String)
  | body (reason : String)
  | exhausted (endpoint : String) (attempts : Nat) (last : Failure)
  deriving DecidableEq, Repr

namespace Failure

def message : Failure → String
  | image path _ => "failed to read image " ++ path
  | client reason => "invalid client configuration: " ++ reason
  | connection reason => "connection error: " ++ reason
  | status code text => "model server returned " ++ toString code ++ ": " ++ text
  | body reason => "failed to read response body: " ++ reason
  | exhausted endpoint attempts last =>
    "Ollama API error after " ++ toString attempts ++ " attempts against " ++ endpoint ++ ": " ++
      last.message

/-- The cause that is told apart from the message. The last failure of an exhausted budget is part
of the message instead. -/
def cause? : Failure → Option String
  | image _ cause => some cause
  | _ => none

def isTransient : Failure → Bool
  | connection _ | status .. | body _ => true
  | _ => false

def attempts? : Failure → Option Nat
  | exhausted _ n _ => some n
  | _ => none

def last? : Failure → Option Failure
  | exhausted _ _ last => some last
  | _ => none

end Failure

end Mockup.Model
