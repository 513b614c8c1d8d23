import Mockup.Config
import Mockup.Extraction
import Mockup.Model.Client
import Mockup.Server.Failure
import Mockup.Server.Prompt
import Mockup.Server.Upload

/-! What it takes to make a component of an upload: the file is kept, the vision model describes it,
the code model writes the sources, and the file is removed, whatever came of it. Between two steps
other requests may take theirs. -/

namespace Mockup.Server

/-- What a request for a component comes to. -/
structure Product where
  description : String
  component : Component

/-- How far a job has come. From `stored` on, and until it is done, its file is on the disk; once
the image is seen the vision model may be asked. -/
inductive Stage where
  | received
  | housed
  | stored
  | seen (image : Option Bytes)
  | described (description : String)
  | settled (outcome : Except Failure Product)
  | done (outcome : Except Failure Product)

/-- Who makes components, and where uploads are kept for as long as it takes. -/
structure Workshop where
  client : Model.Client
  pipeline : Config.Pipeline
  uploadDir : String

/-- An upload on its way, with what was posted for it and the pauses between the attempts. -/
structure Job where
  uuid : String
  upload : Upload
  stage : Stage := .received
  posts : List Model.Post := []
  pauses : List Span := []

namespace Workshop

def path (w : Workshop) (j : Job) : String := Upload.path w.uploadDir j.uuid j.upload.filename

def visionRequest (w : Workshop) (image : String) : Model.Request where
  model := w.pipeline.vision.model
  prompt := visionPrompt
  image := some image
  temperature := w.pipeline.vision.temperature

def codegenRequest (w : Workshop) (description : String) : Model.Request where
  model := w.pipeline.codegen.model
  prompt := codegenPrompt description
  temperature := w.pipeline.codegen.temperature

/-- A failure to keep an upload, as it is told to the client. -/
def storeFailure (e : StoreError) : Failure := .internal e.message [e.cause.message]

def visionFailure (w : Workshop) (e : Model.Failure) : Failure := .vision w.pipeline.vision.model e

def codegenFailure (w : Workshop) (e : Model.Failure) : Failure :=
  .codegen w.pipeline.codegen.model e

def product (description completion : String) : Product :=
  ⟨description, .ofCompletion completion.toList⟩

/-- A call of a model for a job, after the posts that were made for it before. -/
def call (w : Workshop) (j : Job) (r : Model.Request) (image : Option Bytes)
    (reactions : Nat → Model.Reaction) (next : Except Model.Failure String → Stage) : Job :=
  let call := w.client.send r image fun n => reactions (j.posts.length + n)
  { j with
    stage := next call.result
    posts := j.posts ++ call.posts
    pauses := j.pauses ++ call.pauses }

/-- The next step of a job. `reactions` says what becomes of the n-th attempt to post for it. -/
def step (w : Workshop) (reactions : Nat → Model.Reaction) (d : Disk) (j : Job) : Disk × Job :=
  match j.stage with
  | .received =>
    match Upload.house d w.uploadDir with
    | .ok d => (d, { j with stage := .housed })
    | .error e => (d, { j with stage := .done (.error (storeFailure e)) })
  | .housed =>
    match Upload.write d (w.path j) j.upload with
    | .ok d => (d, { j with stage := .stored })
    | .error e => (d, { j with stage := .settled (.error (storeFailure e)) })
  | .stored =>
    match Model.Client.image d (w.visionRequest (w.path j)) with
    | .ok image => (d, { j with stage := .seen image })
    | .error e => (d, { j with stage := .settled (.error (w.visionFailure e)) })
  | .seen image =>
    (d, w.call j (w.visionRequest (w.path j)) image reactions fun
      | .ok description => .described description
      | .error e => .settled (.error (w.visionFailure e)))
  | .described description =>
    (d, w.call j (w.codegenRequest description) none reactions fun
      | .ok completion => .settled (.ok (product description completion))
      | .error e => .settled (.error (w.codegenFailure e)))
  | .settled outcome => (Upload.release d (w.path j), { j with stage := .done outcome })
  | .done _ => (d, j)

/-- The number of steps from a stage to the end. -/
def stepsLeft : Stage → Nat
  | .received => 6
  | .housed => 5
  | .stored => 4
  | .seen _ => 3
  | .described _ => 2
  | .settled _ => 1
  | .done _ => 0

/-- All steps of a job that has the disk to itself. -/
def run (w : Workshop) (reactions : Nat → Model.Reaction) (d : Disk) (j : Job) : Disk × Job :=
  (List.range (stepsLeft j.stage)).foldl (fun (d, j) _ => w.step reactions d j) (d, j)

end Workshop

/-- What a job came to, once it is done. -/
def Job.outcome? (j : Job) : Option (Except Failure Product) :=
  match j.stage with
  | .done outcome => some outcome
  | _ => none

def Product.json (p : Product) : Json :=
  let c := p.component
  let text (s : List Char) : Json := .string (String.ofList s)
  .object [("ui_description", .string p.description),
    ("angular_code", .object [("raw", text c.raw), ("formatted", text c.formatted),
      ("ts_file", text c.sources.logic), ("html_file", text c.sources.markup),
      ("scss_file", text c.sources.stylesheet)])]

end Mockup.Server
