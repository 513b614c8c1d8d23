import Mockup.Json

/-! The written form of a JSON value, without blanks. Quotes, backslashes and control characters are
escaped, and nothing else is. -/

namespace Mockup

def hexDigit (n : Nat) : Char := if n < 10 then Char.ofNat (48 + n) else Char.ofNat (87 + n)

namespace Numeral

def write (n : Numeral) : List Char :=
  (if n.negative then ['-'] else []) ++ Number.digits n.whole ++
    (if n.fraction.isEmpty then [] else '.' :: n.fraction.map fun d => Number.digitChar d.val) ++
    match n.exponent with
    | none => []
    | some e => 'e' :: (if e < 0 then '-' else '+') :: Number.digits e.natAbs

end Numeral

namespace Json

/-- A character inside quotes. -/
def escape (c : Char) : List Char :=
  if c = '"' then ['\\', '"']
  else if c = '\\' then ['\\', '\\']
  else if c = '\n' then ['\\', 'n']
  else if c = '\r' then ['\\', 'r']
  else if c = '\t' then ['\\', 't']
  else if c.toNat = 8 then ['\\', 'b']
  else if c.toNat = 12 then ['\\', 'f']
  else if c.toNat < 32 then
    ['\\', 'u', '0', '0', hexDigit (c.toNat / 16), hexDigit (c.toNat % 16)]
  else [c]

def writeString (s : String) : List Char := '"' :: (s.toList.flatMap escape ++ ['"'])

mutual

def writeChars : Json → List Char
  | null => ['n', 'u', 'l', 'l']
  | bool true => ['t', 'r', 'u', 'e']
  | bool false => ['f', 'a', 'l', 's', 'e']
  | number n => n.write
  | string s => writeString s
  | array [] => ['[', ']']
  | array (x :: xs) => '[' :: (writeChars x ++ writeItems xs)
  | object [] => ['\x7b', '\x7d']
  | object ((k, v) :: ms) => '\x7b' :: (writeString k ++ ':' :: (writeChars v ++ writeMembers ms))

/-- The items after the first, and the end of the array. -/
def writeItems : List Json → List Char
  | [] => [']']
  | x :: xs => ',' :: (writeChars x ++ writeItems xs)

/-- The members after the first, and the end of the object. -/
def writeMembers : List (String × Json) → List Char
  | [] => ['\x7d']
  | (k, v) :: ms => ',' :: (writeString k ++ ':' :: (writeChars v ++ writeMembers ms))

end

def write (j : Json) : String := String.ofList j.writeChars

end Json

end Mockup
