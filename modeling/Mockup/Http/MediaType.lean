import Mockup.Http

/-! The media type of a form, `multipart/form-data`, with parameters after semicolons. A parameter
is a name and a value, and the value is a token or stands between double quotes. -/

namespace Mockup.Http.MediaType

/-- A character between double quotes. There are no escapes. -/
def isQuotedChar (c : Char) : Bool := 31 < c.toNat && c.toNat ≠ 127

/-- A value and what follows its semicolon. -/
abbrev Value := List Char × List Char

/-- The first character between the quotes belongs to the value even if it is a quote. -/
def quotedValue? : List Char → Option Value
  | [] => none
  | c :: s =>
    if !isQuotedChar c then none
    else match s.dropWhile fun c => isQuotedChar c && c ≠ '"' with
      | '"' :: rest =>
        match rest.dropWhile (· = ' ') with
        | [] => some (c :: s.takeWhile (fun c => isQuotedChar c && c ≠ '"'), [])
        | ';' :: rest => some (c :: s.takeWhile (fun c => isQuotedChar c && c ≠ '"'), rest)
        | _ => none
      | _ => none

/-- An empty token stands only at the end. -/
def tokenValue? (s : List Char) : Option Value :=
  let value := s.takeWhile isTokenChar
  match s.dropWhile isTokenChar with
  | [] => some (value, [])
  | ';' :: rest => if value.isEmpty then none else some (value, rest)
  | _ => none

def value? : List Char → Option Value
  | '"' :: s => quotedValue? s
  | s => tokenValue? s

/-- The parameters, names in small letters. Each takes at least two characters, which bounds `fuel`.
-/
def parametersWithin : Nat → List Char → Option (List (String × List Char))
  | 0, _ => none
  | fuel + 1, s =>
    match s.dropWhile (· = ' ') with
    | [] => some []
    | s =>
      let name := s.takeWhile isTokenChar
      match s.dropWhile isTokenChar with
      | '=' :: rest =>
        if name.isEmpty then none
        else do
          let (value, rest) ← value? rest
          let more ← parametersWithin fuel rest
          return (String.ofList (name.map Char.toLower), value) :: more
      | _ => none

def parameters? (s : List Char) : Option (List (String × List Char)) :=
  parametersWithin (s.length + 1) s

/-- The kind within a type, without the suffix that follows its last plus. -/
def withoutSuffix (s : List Char) : List Char :=
  match s.reverse.dropWhile (· ≠ '+') with
  | _ :: before => before.reverse
  | [] => s

/-- A type, its subtype, and its parameters. -/
def read? (s : List Char) : Option (List Char × List Char × List (String × List Char)) :=
  let type := s.takeWhile isTokenChar
  match s.dropWhile isTokenChar with
  | '/' :: s =>
    let subtype := s.takeWhile isTokenChar
    if type.isEmpty then none
    else match s.dropWhile isTokenChar with
      | [] => some (type, withoutSuffix subtype, [])
      | ';' :: s =>
        if subtype.isEmpty then none
        else (parameters? s).map fun ps => (type, withoutSuffix subtype, ps)
      | _ => none
  | _ => none

/-- The boundary between the parts of a form. -/
def boundary? (s : String) : Option String := do
  let (type, subtype, parameters) ← read? s.toList
  let is (name : List Char) (word : String) : Bool := name.map Char.toLower == word.toList
  if is type "multipart" && is subtype "form-data" then
    (parameters.find? (·.1 == "boundary")).map fun p => String.ofList p.2
  else none

end Mockup.Http.MediaType
