import Mockup.Http.MediaType
import Mockup.Text.Cut

/-! Forms in several parts. A line of two hyphens and the boundary stands before each part, and with
two more hyphens after the last; a part is some fields, an empty line, and content up to the next
such line. Content is any bytes in which no line starts with two hyphens and the boundary. -/

namespace Mockup.Http.Multipart

open Text

def bytes (s : String) : Bytes := Utf8.encode s

def lineEnd : Bytes := [13, 10]

/-- What stands before each part. -/
def delimiter (boundary : String) : Bytes := bytes "--" ++ bytes boundary

/-- Space and tab. -/
def isPad (b : UInt8) : Bool := b = 32 || b = 9

/-! ### Fields of a part -/

/-- The largest number of fields of a part. -/
def maxFields : Nat := 32

def isTokenByte (b : UInt8) : Bool := isTokenChar (Char.ofNat b.toNat)

def isValueByte (b : UInt8) : Bool := b = 9 || (32 ≤ b && b ≠ 127)

/-- What follows the end of a line, which may lack its first half. -/
def afterLineEnd? : Bytes → Option Bytes
  | 13 :: 10 :: s => some s
  | 10 :: s => some s
  | _ => none

def trimEnd (s : Bytes) : Bytes := (s.reverse.dropWhile isPad).reverse

/-- A field and what follows its line. -/
def field? (s : Bytes) : Option ((Bytes × Bytes) × Bytes) :=
  let name := s.takeWhile isTokenByte
  match s.dropWhile isTokenByte with
  | 58 :: rest =>
    let rest := rest.dropWhile isPad
    if name.isEmpty then none
    else (afterLineEnd? (rest.dropWhile isValueByte)).map fun after =>
      ((name, trimEnd (rest.takeWhile isValueByte)), after)
  | _ => none

/-- Fields up to the first empty line, at most `count` of them. -/
def fields? : (count : Nat) → Bytes → Option (List (Bytes × Bytes))
  | count, s =>
    match afterLineEnd? s with
    | some _ => some []
    | none =>
      match count with
      | 0 => none
      | count + 1 => do
        let (field, rest) ← field? s
        return field :: (← fields? count rest)

/-! ### The disposition of a part -/

def isBlankByte (b : UInt8) : Bool := b = 32 || (9 ≤ b && b ≤ 13 && b ≠ 11)

def trimBlank (s : Bytes) : Bytes :=
  ((s.dropWhile isBlankByte).reverse.dropWhile isBlankByte).reverse

/-- Up to the first quote that has no backslash directly before it. -/
def quotedText? (before : UInt8) : Bytes → Option Bytes
  | [] => none
  | b :: s => if b = 34 && before ≠ 92 then some [] else (quotedText? b s).map (b :: ·)

/-- A backslash before a quote is dropped. -/
def unescape : Bytes → Bytes
  | 92 :: 34 :: s => 34 :: unescape s
  | b :: s => b :: unescape s
  | [] => []

/-- A value between quotes, or up to a semicolon or a space. -/
def attributeValue? (s : Bytes) : Option Bytes :=
  match s.dropWhile isBlankByte with
  | 34 :: s => (quotedText? 0 s).map unescape
  | s => some ((trimBlank s).takeWhile fun b => b ≠ 59 && b ≠ 32)

/-- The value of the first attribute of that name, which stands at the start or behind a blank or a
semicolon. Each step looks at less; `fuel` bounds them. -/
def attributeWithin (name : Bytes) : Nat → Bytes → Option Bytes
  | 0, _ => none
  | fuel + 1, s => do
    let (before, after) ← cut name s
    let starts := match before.getLast? with
      | some b => isBlankByte b || b = 59
      | none => true
    if starts then
      match after.dropWhile isBlankByte with
      | 61 :: s => attributeValue? s
      | _ => none
    else attributeWithin name fuel after

def attribute? (name : String) (s : Bytes) : Option String :=
  (attributeWithin (bytes name) (s.length + 1) s).bind Utf8.decode?

/-! ### Parts -/

/-- How a part is called, and how the file is called that it holds. -/
structure Disposition where
  name : Option String := none
  filename : Option String := none
  deriving DecidableEq, Repr

def isDispositionField (name : Bytes) : Bool :=
  name.map (fun b => if 65 ≤ b && b ≤ 90 then b + 32 else b) == bytes "content-disposition"

/-- Of several disposition fields the last counts. -/
def Disposition.ofFields (fields : List (Bytes × Bytes)) : Disposition :=
  match fields.reverse.find? fun f => isDispositionField f.1 with
  | none => {}
  | some (_, value) => ⟨attribute? "name" value, attribute? "filename" value⟩

/-- What stands at a delimiter. -/
inductive Head where
  | last
  | part (disposition : Disposition) (rest : Bytes)
  deriving Repr

/-- Reads a delimiter and the fields of the part behind it. -/
def head? (boundary : String) (s : Bytes) : Option Head := do
  let s ← past? (delimiter boundary) s
  match s with
  | 45 :: 45 :: _ => return .last
  | _ :: _ :: _ =>
    let s ← past? lineEnd (s.dropWhile isPad)
    let (fields, rest) ← cut (lineEnd ++ lineEnd) s
    return .part (.ofFields (← fields? maxFields (fields ++ lineEnd ++ lineEnd))) rest
  | _ => none

/-- The content of a part, and what follows from the next delimiter on. -/
def content? (boundary : String) (s : Bytes) : Option (Bytes × Bytes) :=
  (cut (lineEnd ++ delimiter boundary) s).map fun (content, rest) =>
    (content, delimiter boundary ++ rest)

/-- Why no part was found. -/
inductive Missing where
  | malformed
  /-- The part is there, but no delimiter follows. -/
  | unfinished
  | absent
  deriving DecidableEq, Repr

/-- The first part of that name from a delimiter on: the name of its file, and its content. Each
part takes some bytes, which bounds `fuel`. -/
def partWithin (boundary name : String) : Nat → Bytes → Except Missing (Option String × Bytes)
  | 0, _ => .error .malformed
  | fuel + 1, s =>
    match head? boundary s with
    | none => .error .malformed
    | some .last => .error .absent
    | some (.part disposition rest) =>
      let isWanted := disposition.name == some name
      match content? boundary rest with
      | none => .error (if isWanted then .unfinished else .malformed)
      | some (content, rest) =>
        if isWanted then .ok (disposition.filename, content)
        else partWithin boundary name fuel rest

/-- What stands before the first delimiter is skipped. -/
def part (boundary name : String) (body : Bytes) : Except Missing (Option String × Bytes) :=
  match cut (delimiter boundary) body with
  | none => .error .malformed
  | some (_, rest) => partWithin boundary name (body.length + 1) (delimiter boundary ++ rest)

end Mockup.Http.Multipart
