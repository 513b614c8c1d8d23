import Mockup.Text.Utf8
import Mockup.Number.Decimal

/-! Percent-encoding. Each part of a URL has a set of characters that may not stand there as they
are; what is outside printable ASCII is in every set. -/

namespace Mockup.Network.Percent

/-- Control characters, and everything that is not ASCII. -/
def isControl (c : Char) : Bool := c.toNat < 0x20 || 0x7E < c.toNat

def inQuery (c : Char) : Bool := isControl c || [' ', '"', '#', '<', '>'].contains c

def inSpecialQuery (c : Char) : Bool := inQuery c || c == '\''

def inFragment (c : Char) : Bool := isControl c || [' ', '"', '<', '>', '\x60'].contains c

def inPath (c : Char) : Bool := inFragment c || ['#', '?', '\x7b', '\x7d'].contains c

def inUserinfo (c : Char) : Bool :=
  inPath c || ['/', ':', ';', '=', '@', '[', '\\', ']', '^', '|'].contains c

def encodeByte (b : UInt8) : List Char :=
  let digit (n : Nat) : Char := if n < 10 then Char.ofNat (48 + n) else Char.ofNat (55 + n)
  ['%', digit (b.toNat / 16), digit (b.toNat % 16)]

def encode (set : Char → Bool) (s : List Char) : List Char :=
  s.flatMap fun c => if set c then (String.utf8EncodeChar c).flatMap encodeByte else [c]

/-- The bytes of a text. A percent sign before two hexadecimal digits stands for a byte. -/
def decode : List Char → Bytes
  | '%' :: a :: b :: s =>
    match Number.ofDigitsIn? 16 [a, b] with
    | some n => UInt8.ofNat n :: decode s
    | none => String.utf8EncodeChar '%' ++ decode (a :: b :: s)
  | c :: s => String.utf8EncodeChar c ++ decode s
  | [] => []

end Mockup.Network.Percent
