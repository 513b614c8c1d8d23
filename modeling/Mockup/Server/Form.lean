import Mockup.Http.Multipart
import Mockup.Server.Upload

/-! The form in which a design is sent. Its first part named file is the upload; every other part is
passed over. -/

namespace Mockup.Server

open Http

/-- Why a request holds no upload. -/
inductive FormError where
  | noForm
  | noBoundary
  | unreadable
  | unreadableFile
  | noFile
  deriving DecidableEq, Repr

def formType : String := "multipart/form-data"

/-- The part that holds the design. -/
def filePart : String := "file"

def FormError.message : FormError → String
  | noForm => "expected 'Content-Type: multipart/form-data'"
  | noBoundary =>
    "failed to parse multipart form: Invalid `boundary` for `multipart/form-data` request"
  | unreadable => "failed to read multipart form: Error parsing `multipart/form-data` request"
  | unreadableFile => "failed to read file data: Error parsing `multipart/form-data` request"
  | noFile => "missing required 'file' field in multipart form"

/-- The content type of a request, if it is text. -/
def contentType (r : Request) : String :=
  ((r.field? "content-type").filter (·.toList.all isPlainChar)).getD ""

/-- The upload in a request. A body of more than `limit` bytes is not read. -/
def Upload.ofRequest (limit : Nat) (r : Request) : Except FormError Upload :=
  let type := contentType r
  if !formType.toList.isPrefixOf type.toList then .error .noForm
  else match MediaType.boundary? type with
    | none => .error .noBoundary
    | some boundary =>
      if limit < r.body.length then .error .unreadable
      else match Multipart.part boundary filePart r.body with
        | .ok (filename, content) => .ok ⟨sanitizeFilename filename, content⟩
        | .error .malformed => .error .unreadable
        | .error .unfinished => .error .unreadableFile
        | .error .absent => .error .noFile

end Mockup.Server
