/-! UTF-8, with every malformed sequence read as one replacement character. The reader takes one
byte at a time; between bytes it knows how many are owed and the range of the next one. -/

namespace Mockup

abbrev Bytes := List UInt8

namespace Text.Utf8

def encode (s : String) : Bytes := s.toUTF8.toList

/-- Where the reader stands: the bytes still owed, the range of the next one, and the bits so far.
-/
structure Owed where
  count : Nat := 0
  low : Nat := 0x80
  high : Nat := 0xBF
  bits : Nat := 0

def replacement : Char := Char.ofNat 0xFFFD

/-- The first byte of a character: a whole character, a start, or nothing that may start one. -/
def start (b : Nat) : Option (Char ⊕ Owed) :=
  if b < 0x80 then some (.inl (Char.ofNat b))
  else if 0xC2 ≤ b && b ≤ 0xDF then some (.inr { count := 1, bits := b - 0xC0 })
  else if b = 0xE0 then some (.inr { count := 2, low := 0xA0 })
  else if b = 0xED then some (.inr { count := 2, high := 0x9F, bits := 0xD })
  else if 0xE1 ≤ b && b ≤ 0xEF then some (.inr { count := 2, bits := b - 0xE0 })
  else if b = 0xF0 then some (.inr { count := 3, low := 0x90 })
  else if 0xF1 ≤ b && b ≤ 0xF3 then some (.inr { count := 3, bits := b - 0xF0 })
  else if b = 0xF4 then some (.inr { count := 3, high := 0x8F, bits := 4 })
  else none

/-- A character is none where the bytes are malformed. -/
def chars (st : Owed) : Bytes → List (Option Char)
  | [] => if st.count = 0 then [] else [none]
  | b :: bs =>
    let n := b.toNat
    if st.count ≠ 0 && st.low ≤ n && n ≤ st.high then
      let bits := st.bits * 64 + (n - 0x80)
      if st.count = 1 then some (Char.ofNat bits) :: chars {} bs
      else chars { count := st.count - 1, bits } bs
    else
      let cut := if st.count = 0 then [] else [none]
      match start n with
      | none => cut ++ none :: chars {} bs
      | some (.inl c) => cut ++ some c :: chars {} bs
      | some (.inr st) => cut ++ chars st bs

/-- The text of the bytes, with replacement characters. -/
def decode (bs : Bytes) : String := String.ofList ((chars {} bs).map (·.getD replacement))

/-- The text of the bytes, if they are well-formed. -/
def decode? (bs : Bytes) : Option String := ((chars {} bs).mapM id).map String.ofList

/-- The number of bytes that a text takes. -/
def size : List Char → Nat
  | [] => 0
  | c :: s => c.utf8Size + size s

end Text.Utf8

end Mockup
