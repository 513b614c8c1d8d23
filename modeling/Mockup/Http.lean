import Mockup.Text.Utf8

/-! Requests and responses. The name of a header field does not depend on the case of its letters;
a response has few fields, whose names are written small. -/

namespace Mockup.Http

/-- The characters of methods, of field names, and of the tokens in a field. -/
def isTokenChar (c : Char) : Bool := c.isAlphanum || "!#$%&'*+-.^_`|~".toList.contains c

def isToken (s : List Char) : Bool := !s.isEmpty && s.all isTokenChar

/-- A character that may stand in the value of a field. -/
def isValueChar (c : Char) : Bool := c = '\t' || (32 ≤ c.toNat && c.toNat ≠ 127)

/-- A character of a value that is read as text. -/
def isPlainChar (c : Char) : Bool := isValueChar c && c.toNat < 127

/-- Names of fields and their values. -/
abbrev Fields := List (String × String)

structure Request where
  method : String
  target : String
  fields : Fields := []
  body : Bytes := []

structure Response where
  status : Nat
  fields : Fields := []
  body : String := ""
  deriving DecidableEq, Repr

/-- The value of the first field of that name. -/
def Request.field? (r : Request) (name : String) : Option String :=
  (r.fields.find? fun f => f.1.map Char.toLower == name).map (·.2)

/-- What follows the scheme and the host of a full address. -/
def afterAuthority : List Char → Option (List Char)
  | ':' :: '/' :: '/' :: s => some (s.dropWhile (· ≠ '/'))
  | _ :: s => afterAuthority s
  | [] => none

/-- The path of the target, as it is written. A bare authority has none. -/
def Request.path (r : Request) : String :=
  let s := r.target.toList.takeWhile fun c => c ≠ '?' && c ≠ '#'
  if s.head? = some '/' || s = ['*'] then String.ofList s
  else match afterAuthority s with
    | some [] => "/"
    | some path => String.ofList path
    | none => ""

end Mockup.Http
