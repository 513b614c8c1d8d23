import Mockup.Json

/-! Reading JSON. The text is cut into tokens, and a machine with a stack of open containers takes
the tokens one by one; what it has done is the stack, and what it expects is its mode. At most 127
containers may be open at once. -/

namespace Mockup.Json

/-! ### Tokens -/

inductive Token where
  | openBrace | closeBrace | openBracket | closeBracket | colon | comma
  | scalar (v : Json)
  | text (s : String)
  deriving Repr

def isSpace (c : Char) : Bool := c = ' ' || c = '\n' || c = '\t' || c = '\r'

def hex4? (a b c d : Char) : Option Nat :=
  Number.ofDigitsIn? 16 [a, b, c, d]

def isHighSurrogate (n : Nat) : Bool := 0xD800 ≤ n && n ≤ 0xDBFF

def isLowSurrogate (n : Nat) : Bool := 0xDC00 ≤ n && n ≤ 0xDFFF

/-- The character of a one-letter escape. -/
def simpleEscape? (c : Char) : Option Char :=
  if c = '"' || c = '\\' || c = '/' then some c
  else if c = 'b' then some (Char.ofNat 8)
  else if c = 'f' then some (Char.ofNat 12)
  else if c = 'n' then some '\n'
  else if c = 'r' then some '\r'
  else if c = 't' then some '\t'
  else none

/-- The characters up to the closing quote, and what follows it. A surrogate must come in a pair. -/
def readString? : List Char → Option (List Char × List Char)
  | [] => none
  | '"' :: s => some ([], s)
  | '\\' :: 'u' :: a :: b :: c :: d :: s => do
    let n ← hex4? a b c d
    if isHighSurrogate n then
      match s with
      | '\\' :: 'u' :: a :: b :: c :: d :: s =>
        let m ← hex4? a b c d
        if isLowSurrogate m then
          let (cs, r) ← readString? s
          return (Char.ofNat (0x10000 + (n - 0xD800) * 0x400 + (m - 0xDC00)) :: cs, r)
        else none
      | _ => none
    else if isLowSurrogate n then none
    else
      let (cs, r) ← readString? s
      return (Char.ofNat n :: cs, r)
  | '\\' :: c :: s => do
    let e ← simpleEscape? c
    let (cs, r) ← readString? s
    return (e :: cs, r)
  | c :: s => do
    if c = '\\' || c.toNat < 32 then none
    else
      let (cs, r) ← readString? s
      return (c :: cs, r)

def digitsOf (s : List Char) : List (Fin 10) :=
  (s.takeWhile Number.isDigit).map Number.digit

def afterDigits (s : List Char) : List Char := s.dropWhile Number.isDigit

/-- The exponent part, if there is one. A letter without digits is an error. -/
def readExponent? : List Char → Option (Option Int × List Char)
  | c :: s =>
    if c = 'e' || c = 'E' then
      let (neg, s) := Number.readSign s
      let ds := s.takeWhile Number.isDigit
      if ds.isEmpty then none
      else
        let n : Int := Number.ofDigits ds
        some (some (if neg then -n else n), afterDigits s)
    else some (none, c :: s)
  | [] => some (none, [])

/-- An unsigned numeral. A leading zero stands alone; a point is followed by a digit. -/
def readUnsigned? (negative : Bool) (s : List Char) : Option (Numeral × List Char) := do
  let whole := s.takeWhile Number.isDigit
  if whole.isEmpty || (whole.length ≠ 1 && whole.head? = some '0') then none
  let (fraction, s) ← match afterDigits s with
    | '.' :: s => if (digitsOf s).isEmpty then none else some (digitsOf s, afterDigits s)
    | s => some ([], s)
  let (exponent, s) ← readExponent? s
  let n : Numeral := ⟨negative, Number.ofDigits whole, fraction, exponent⟩
  if n.toInt?.isNone && n.toDouble?.isNone then none
  return (n, s)

/-- The token at the start of a text, which starts with no space, and what follows it. -/
def Token.read? : List Char → Option (Token × List Char)
  | '\x7b' :: s => some (openBrace, s)
  | '\x7d' :: s => some (closeBrace, s)
  | '[' :: s => some (openBracket, s)
  | ']' :: s => some (closeBracket, s)
  | ':' :: s => some (colon, s)
  | ',' :: s => some (comma, s)
  | '"' :: s => (readString? s).map fun (cs, r) => (text (String.ofList cs), r)
  | 'n' :: 'u' :: 'l' :: 'l' :: s => some (scalar null, s)
  | 't' :: 'r' :: 'u' :: 'e' :: s => some (scalar (bool true), s)
  | 'f' :: 'a' :: 'l' :: 's' :: 'e' :: s => some (scalar (bool false), s)
  | '-' :: s => (readUnsigned? true s).map fun (n, r) => (scalar (number n), r)
  | s => (readUnsigned? false s).map fun (n, r) => (scalar (number n), r)

/-- The tokens of a text. A token takes at least one character, so `fuel` is never short. -/
def tokensWithin : Nat → List Char → Option (List Token)
  | fuel, s =>
    match s.dropWhile isSpace, fuel with
    | [], _ => some []
    | _, 0 => none
    | s, fuel + 1 => do
      let (t, r) ← Token.read? s
      let ts ← tokensWithin fuel r
      return t :: ts

def tokens? (s : List Char) : Option (List Token) := tokensWithin s.length s

/-! ### The machine -/

/-- An open container: what it holds so far, the last first. -/
inductive Frame where
  | items (done : List Json)
  | members (done : List (String × Json)) (name : String)
  deriving Repr

/-- What may come next. -/
inductive Mode where
  | value
  | firstItem
  | firstName
  | name (done : List (String × Json))
  | colon (done : List (String × Json)) (name : String)
  | finished (v : Json)
  deriving Repr

structure State where
  stack : List Frame := []
  mode : Mode := .value
  deriving Repr

def maxOpen : Nat := 127

/-- The start of a value. While a container waits for its first item or name it is not on the
stack, so it counts for one more. -/
def State.startValue? (stack : List Frame) : Token → Option State
  | .scalar v => some ⟨stack, .finished v⟩
  | .text s => some ⟨stack, .finished (string s)⟩
  | .openBracket => if stack.length < maxOpen then some ⟨stack, .firstItem⟩ else none
  | .openBrace => if stack.length < maxOpen then some ⟨stack, .firstName⟩ else none
  | _ => none

def State.step? : State → Token → Option State
  | ⟨stack, .value⟩, t => startValue? stack t
  | ⟨stack, .firstItem⟩, .closeBracket => some ⟨stack, .finished (array [])⟩
  | ⟨stack, .firstItem⟩, t => startValue? (.items [] :: stack) t
  | ⟨stack, .firstName⟩, .closeBrace => some ⟨stack, .finished (object [])⟩
  | ⟨stack, .firstName⟩, .text k => some ⟨stack, .colon [] k⟩
  | ⟨stack, .name done⟩, .text k => some ⟨stack, .colon done k⟩
  | ⟨stack, .colon done k⟩, .colon => some ⟨.members done k :: stack, .value⟩
  | ⟨.items done :: stack, .finished v⟩, .comma => some ⟨.items (v :: done) :: stack, .value⟩
  | ⟨.items done :: stack, .finished v⟩, .closeBracket =>
    some ⟨stack, .finished (array (v :: done).reverse)⟩
  | ⟨.members done k :: stack, .finished v⟩, .comma => some ⟨stack, .name ((k, v) :: done)⟩
  | ⟨.members done k :: stack, .finished v⟩, .closeBrace =>
    some ⟨stack, .finished (object ((k, v) :: done).reverse)⟩
  | _, _ => none

def State.run? (st : State) (ts : List Token) : Option State := ts.foldlM State.step? st

/-- The value that a text holds, if the text is one JSON value and nothing else. -/
def read? (s : List Char) : Option Json := do
  let ts ← tokens? s
  match ← State.run? {} ts with
  | ⟨[], .finished v⟩ => some v
  | _ => none

def ofText? (s : String) : Option Json := read? s.toList

end Mockup.Json
