import Mockup.Number.Decimal

/-! Sets of characters, written as ranges of code points in hexadecimal digits, with a hyphen
between the first and the last of a range and blanks between ranges. -/

namespace Mockup.Text

abbrev Ranges := List (Nat × Nat)

/-- The words of a text, between spaces and line breaks. -/
def words (s : List Char) : List (List Char) :=
  ((s.map fun c => if c = '\n' then ' ' else c).splitOn ' ').filter (!·.isEmpty)

def hexadecimal (s : List Char) : Nat := (Number.ofDigitsIn? 16 s).getD 0

namespace Ranges

def ofWord (w : List Char) : Nat × Nat :=
  match w.splitOn '-' with
  | [first, last] => (hexadecimal first, hexadecimal last)
  | _ => (hexadecimal w, hexadecimal w)

def ofText (s : String) : Ranges := (words s.toList).map ofWord

def contains (r : Ranges) (c : Char) : Bool :=
  r.any fun (first, last) => first ≤ c.toNat && c.toNat ≤ last

end Ranges

end Mockup.Text
