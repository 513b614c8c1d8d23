import Mockup.Text.Printable

/-! A text between double quotes in which everything that does not print is escaped, for messages
that show what was found. -/

namespace Mockup.Text

def hexDigits (n : Nat) : List Char := Nat.toDigits 16 n

def quoteChar (c : Char) : List Char :=
  if c = '"' || c = '\\' then ['\\', c]
  else if c = '\n' then ['\\', 'n']
  else if c = '\r' then ['\\', 'r']
  else if c = '\t' then ['\\', 't']
  else if c.toNat = 0 then ['\\', '0']
  else if isPrintable c then [c]
  else ['\\', 'u', '\x7b'] ++ hexDigits c.toNat ++ ['\x7d']

def quoted (s : String) : String := String.ofList ('"' :: (s.toList.flatMap quoteChar ++ ['"']))

end Mockup.Text
