import Mockup.Json.Reader

/-! The completion in an answer of the model server. -/

namespace Mockup.Model

/-- The text in the member response of a JSON object; any other body is itself the completion. -/
def completionText (body : String) : String :=
  match (Json.ofText? body).bind (·.member? "response") with
  | some (.string text) => text
  | _ => body

end Mockup.Model
