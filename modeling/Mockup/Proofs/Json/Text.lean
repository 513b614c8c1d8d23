import Mockup.Json.Reader

/-! The texts of a JSON value. A value is a sequence of tokens; each token is written in one of its
ways, with blanks around it. A string may be written with any mixture of its escapes, a number
with any exponent sign and leading zeros in the exponent. -/

namespace Mockup.Json

/-! ### Strings -/

/-- A hexadecimal digit, in either case. -/
def IsHexDigit (c : Char) (n : Nat) : Prop :=
  "0123456789abcdef".toList[n]? = some c ∨ "0123456789ABCDEF".toList[n]? = some c

/-- Four hexadecimal digits and the number they make. -/
inductive IsCodeUnit : List Char → Nat → Prop where
  | digits {a b c d : Char} {i j k l : Nat} (ha : IsHexDigit a i) (hb : IsHexDigit b j)
    (hc : IsHexDigit c k) (hd : IsHexDigit d l) :
    IsCodeUnit [a, b, c, d] (0x1000 * i + 0x100 * j + 0x10 * k + l)

/-- The letters after a backslash, and the characters they stand for. -/
def shortEscapes : List (Char × Char) :=
  [('"', '"'), ('\\', '\\'), ('/', '/'), ('b', '\x08'), ('f', '\x0c'), ('n', '\n'), ('r', '\r'),
    ('t', '\t')]

/-- The ways to write one character between quotes: as it is, behind a backslash, by its number, or,
where four digits do not hold the number, by two surrogates. -/
inductive IsSpelled : Char → List Char → Prop where
  | plain {c : Char} (hq : c ≠ '"') (hb : c ≠ '\\') (hc : 32 ≤ c.toNat) : IsSpelled c [c]
  | short {e c : Char} (h : (e, c) ∈ shortEscapes) : IsSpelled c ['\\', e]
  | unit {u : List Char} {c : Char} (hu : IsCodeUnit u c.toNat) : IsSpelled c ('\\' :: 'u' :: u)
  | pair {u v : List Char} {n m : Nat} {c : Char} (hu : IsCodeUnit u n) (hv : IsCodeUnit v m)
    (hn : 0xD800 ≤ n ∧ n ≤ 0xDBFF) (hm : 0xDC00 ≤ m ∧ m ≤ 0xDFFF)
    (hc : c.toNat = 0x10000 + (n - 0xD800) * 0x400 + (m - 0xDC00)) :
    IsSpelled c ('\\' :: 'u' :: (u ++ '\\' :: 'u' :: v))

/-- A text between quotes. -/
inductive Quoted : List Char → List Char → Prop where
  | nil : Quoted [] []
  | cons {c : Char} {cs w ws : List Char} (hc : IsSpelled c w) (h : Quoted cs ws) :
    Quoted (c :: cs) (w ++ ws)

/-! ### Numbers -/

def IsDigits (w : List Char) : Prop := w ≠ [] ∧ ∀ c ∈ w, Number.isDigit c = true

/-- The digits before the point: zero alone, or digits of which the first is not zero. -/
def IsWhole (w : List Char) (n : Nat) : Prop :=
  IsDigits w ∧ (w.head? = some '0' → w = ['0']) ∧ n = Number.ofDigits w

inductive IsFraction : List Char → List (Fin 10) → Prop where
  | none : IsFraction [] []
  | point {w : List Char} (h : IsDigits w) : IsFraction ('.' :: w) (w.map Number.digit)

inductive IsExponent : List Char → Option Int → Prop where
  | none : IsExponent [] none
  | unsigned {e : Char} {w : List Char} (he : e = 'e' ∨ e = 'E') (h : IsDigits w) :
    IsExponent (e :: w) (some (Number.ofDigits w))
  | plus {e : Char} {w : List Char} (he : e = 'e' ∨ e = 'E') (h : IsDigits w) :
    IsExponent (e :: '+' :: w) (some (Number.ofDigits w))
  | minus {e : Char} {w : List Char} (he : e = 'e' ∨ e = 'E') (h : IsDigits w) :
    IsExponent (e :: '-' :: w) (some (-Number.ofDigits w))

inductive IsUnsigned (negative : Bool) : List Char → Numeral → Prop where
  | parts {i f e : List Char} {whole : Nat} {fraction : List (Fin 10)} {exponent : Option Int}
    (hi : IsWhole i whole) (hf : IsFraction f fraction) (he : IsExponent e exponent) :
    IsUnsigned negative (i ++ (f ++ e)) ⟨negative, whole, fraction, exponent⟩

inductive IsNumeral : List Char → Numeral → Prop where
  | positive {w : List Char} {n : Numeral} (h : IsUnsigned false w n) : IsNumeral w n
  | negative {w : List Char} {n : Numeral} (h : IsUnsigned true w n) : IsNumeral ('-' :: w) n

/-- The numeral stands for a number: an integer of 64 bits, or a double that is finite. -/
def InRange (n : Numeral) : Prop := n.toInt?.isSome ∨ n.toDouble?.isSome

/-! ### Tokens -/

/-- The ways to write a token. -/
inductive Token.Written : Token → List Char → Prop where
  | openBrace : Written .openBrace ['\x7b']
  | closeBrace : Written .closeBrace ['\x7d']
  | openBracket : Written .openBracket ['[']
  | closeBracket : Written .closeBracket [']']
  | colon : Written .colon [':']
  | comma : Written .comma [',']
  | nullWord : Written (.scalar null) ['n', 'u', 'l', 'l']
  | trueWord : Written (.scalar (bool true)) ['t', 'r', 'u', 'e']
  | falseWord : Written (.scalar (bool false)) ['f', 'a', 'l', 's', 'e']
  | number {w : List Char} {n : Numeral} (h : IsNumeral w n) (hn : InRange n) :
    Written (.scalar (number n)) w
  | text {k : String} {w : List Char} (h : Quoted k.toList w) :
    Written (.text k) ('"' :: (w ++ ['"']))

/-- The tokens stand one behind another in the text, with nothing but blanks around them. -/
inductive Laid : List Token → List Char → Prop where
  | nil {b : List Char} (hb : ∀ c ∈ b, isSpace c = true) : Laid [] b
  | cons {t : Token} {ts : List Token} {b w s : List Char} (hb : ∀ c ∈ b, isSpace c = true)
    (hw : t.Written w) (h : Laid ts s) : Laid (t :: ts) (b ++ (w ++ s))

/-! ### Values -/

mutual

/-- The tokens that a value is written with. -/
def spelling : Json → List Token
  | null => [.scalar null]
  | bool b => [.scalar (bool b)]
  | number n => [.scalar (number n)]
  | string s => [.text s]
  | array [] => [.openBracket, .closeBracket]
  | array (x :: xs) => .openBracket :: (spelling x ++ spellingItems xs)
  | object [] => [.openBrace, .closeBrace]
  | object ((k, v) :: ms) => .openBrace :: .text k :: .colon :: (spelling v ++ spellingMembers ms)

def spellingItems : List Json → List Token
  | [] => [.closeBracket]
  | x :: xs => .comma :: (spelling x ++ spellingItems xs)

def spellingMembers : List (String × Json) → List Token
  | [] => [.closeBrace]
  | (k, v) :: ms => .comma :: .text k :: .colon :: (spelling v ++ spellingMembers ms)

end

mutual

/-- How many containers are open at once in the text of a value. -/
def depth : Json → Nat
  | null | bool _ | number _ | string _ => 0
  | array xs => depthItems xs + 1
  | object ms => depthMembers ms + 1

def depthItems : List Json → Nat
  | [] => 0
  | x :: xs => max (depth x) (depthItems xs)

def depthMembers : List (String × Json) → Nat
  | [] => 0
  | (_, v) :: ms => max (depth v) (depthMembers ms)

end

/-- The text is one JSON value and blanks around it, with no more containers open at once than a
reader allows. -/
def IsTextOf (s : List Char) (v : Json) : Prop := depth v ≤ maxOpen ∧ Laid (spelling v) s

end Mockup.Json
