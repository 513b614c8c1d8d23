/-! Blank characters, in the sense of the Unicode property White_Space, and trimming.
A trimmed text is the largest piece of the text that neither starts nor ends with a blank. -/

namespace Mockup.Text

/-- The Unicode property White_Space. -/
def isBlank (c : Char) : Bool :=
  let n := c.toNat
  (9 ≤ n && n ≤ 13) || n == 0x20 || n == 0x85 || n == 0xA0 || n == 0x1680 ||
    (0x2000 ≤ n && n ≤ 0x200A) || n == 0x2028 || n == 0x2029 || n == 0x202F || n == 0x205F ||
    n == 0x3000

def trimStart (s : List Char) : List Char := s.dropWhile isBlank

def trimEnd (s : List Char) : List Char := (s.reverse.dropWhile isBlank).reverse

def trim (s : List Char) : List Char := trimEnd (trimStart s)

/-- Some character is not blank. -/
def hasContent (s : List Char) : Bool := s.any (!isBlank ·)

end Mockup.Text
