import Mockup.Json.Writer
import Mockup.Text.Base64

/-! What the model server is asked: the body of a generation request. -/

namespace Mockup.Model

open Number

/-- The sampling temperature of a request that states none. -/
def defaultTemperature : Floating := (⟨false, 7, -1⟩ : Decimal).toFloating .single

/-- A question to a model. Images are base64 text; the answer is asked for in one piece. -/
structure Query where
  model : String
  prompt : String
  stream : Bool := false
  temperature : Floating := defaultTemperature
  images : Option (List String) := none

namespace Query

/-- A question with the bytes of an image, if there is one. -/
def about (model prompt : String) (temperature : Floating) (image : Option Bytes) : Query where
  model := model
  prompt := prompt
  temperature := temperature
  images := image.map fun bytes => [String.ofList (Text.Base64.encode bytes)]

def json (q : Query) : Json :=
  .object ([("model", .string q.model), ("prompt", .string q.prompt), ("stream", .bool q.stream),
    ("temperature", .ofSingle q.temperature)] ++
      (q.images.map fun is => ("images", Json.array (is.map .string))).toList)

def body (q : Query) : String := q.json.write

end Query

end Mockup.Model
