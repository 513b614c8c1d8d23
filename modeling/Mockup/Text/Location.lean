import Mockup.Text.Utf8

/-! Places in a text, as messages show them: the line and the column of a byte, and the line with a
pointer below it. -/

namespace Mockup.Text

/-- A line and a column, both counted from zero. -/
structure Location where
  line : Nat
  column : Nat
  deriving DecidableEq, Repr

def newline : UInt8 := 10

/-- The last line of a text, and how many lines stand before it. -/
def lastLine (bs : Bytes) : Bytes × Nat :=
  ((bs.reverse.takeWhile (· != newline)).reverse, bs.count newline)

/-- The location of a byte. A column counts the characters before it, or the bytes before it where
the byte does not end a character. The end of a text is one past its last byte. -/
def locate (text : Bytes) (index : Nat) : Location :=
  if text.isEmpty then ⟨0, index⟩
  else
    let last := min index (text.length - 1)
    let (before, line) := lastLine (text.take last)
    let column := match Utf8.decode? (before ++ (text.drop last).take 1) with
      | some s => s.length - 1
      | none => before.length
    ⟨line, column + (index - last)⟩

def spaces (n : Nat) : String := String.ofList (List.replicate n ' ')

/-- A heading, the line of the location, and a pointer of `width` bytes under it, no longer than the
line. -/
def excerpt (heading : String) (text : String) (loc : Location) (width : Nat) : String :=
  let number := toString (loc.line + 1)
  let gutter := spaces number.length
  let line := ((text.splitOn "\n")[loc.line]?).getD ""
  let width := min width (line.utf8ByteSize - loc.column)
  heading ++ " at line " ++ number ++ ", column " ++ toString (loc.column + 1) ++ "\n" ++
    gutter ++ " |\n" ++ number ++ " | " ++ line ++ "\n" ++ gutter ++ " | " ++
    spaces loc.column ++ String.ofList (List.replicate (max 1 width) '^') ++ "\n"

end Mockup.Text
