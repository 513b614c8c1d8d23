import Mockup.Document

/-! What the bare words of TOML stand for: truth values, integers in four radixes, floats, dates and
times of day. Single underscores may stand between digits. -/

namespace Mockup.Toml

open Number

/-- Digits without the underscores between them. -/
def ungroup? (p : Char → Bool) (s : List Char) : Option (List Char) :=
  let groups := s.splitOn '_'
  if groups.all fun g => !g.isEmpty && g.all p then some groups.flatten else none

/-- Decimal digits without a zero in front that they do not need. -/
def decimalDigits? (s : List Char) : Option (List Char) := do
  let ds ← ungroup? isDigit s
  if 1 < ds.length && ds.head? = some '0' then none else some ds

def integer? (s : List Char) : Option Int :=
  let prefixed (radix : Nat) (s : List Char) : Option Int := do
    let n ← ofDigitsIn? radix (← ungroup? (isDigitIn radix) s)
    return n
  match s with
  | '0' :: 'x' :: s => prefixed 16 s
  | '0' :: 'o' :: s => prefixed 8 s
  | '0' :: 'b' :: s => prefixed 2 s
  | s => do
    let (neg, s) := readSign s
    let n : Int := ofDigits (← decimalDigits? s)
    return if neg then -n else n

/-- A float has a fraction or an exponent, and digits on either side of its point. -/
def decimal? (s : List Char) : Option Decimal := do
  let (neg, s) := readSign s
  let isE (c : Char) : Bool := c = 'e' || c = 'E'
  let mantissa := s.takeWhile (!isE ·)
  let exponent := s.dropWhile (!isE ·)
  let whole ← decimalDigits? (mantissa.takeWhile (· != '.'))
  let fraction ← match mantissa.dropWhile (· != '.') with
    | [] => if exponent.isEmpty then none else some []
    | _ :: s => ungroup? isDigit s
  let e ← match exponent with
    | [] => some 0
    | _ :: s => do
      let (neg, s) := readSign s
      let ds ← ungroup? isDigit s
      -- beyond eight digits every exponent says the same
      let n : Int := if (ds.dropWhile (· == '0')).length ≤ 8 then ofDigits ds else Number.tenTo 8
      some (if neg then -n else n)
  return ⟨neg, ofDigits (whole ++ fraction), e - fraction.length⟩

/-! ### Dates and times -/

/-- A number of two digits below a bound, and what follows it. -/
def twoDigits? (bound : Nat) : List Char → Option (Nat × List Char)
  | a :: b :: s =>
    if isDigit a && isDigit b && ofDigits [a, b] < bound then some (ofDigits [a, b], s) else none
  | _ => none

def expect? (c : Char) : List Char → Option (List Char)
  | d :: s => if c = d then some s else none
  | [] => none

def isLeapYear (y : Nat) : Bool := y % 4 = 0 && (y % 100 ≠ 0 || y % 400 = 0)

def monthLength (year month : Nat) : Nat :=
  if month = 2 then (if isLeapYear year then 29 else 28)
  else if [4, 6, 9, 11].contains month then 30 else 31

/-- What follows a date. -/
def afterDate? (s : List Char) : Option (List Char) := do
  let year := s.take 4
  if year.length ≠ 4 || !year.all isDigit then none
  let (month, s) ← twoDigits? 13 (← expect? '-' (s.drop 4))
  let (day, s) ← twoDigits? 32 (← expect? '-' s)
  if month = 0 || day = 0 || monthLength (ofDigits year) month < day then none
  return s

/-- What follows a time of day. The seconds may be missing, and may have a fraction. -/
def afterTime? (s : List Char) : Option (List Char) := do
  let (_, s) ← twoDigits? 24 s
  let (_, s) ← twoDigits? 60 (← expect? ':' s)
  match s with
  | ':' :: s => do
    let (_, s) ← twoDigits? 61 s
    match s with
    | '.' :: s => if (s.takeWhile isDigit).isEmpty then none else some (s.dropWhile isDigit)
    | s => some s
  | s => some s

/-- The whole text is an offset from universal time, or empty. -/
def isOffset : List Char → Bool
  | [] | ['Z'] | ['z'] => true
  | c :: s =>
    (c = '+' || c = '-') &&
      ((do
        let (_, s) ← twoDigits? 25 s
        let (_, s) ← twoDigits? 60 (← expect? ':' s)
        return s) == some [])

def isDate (s : List Char) : Bool := afterDate? s == some []

/-- A date, a time of day, or both. -/
def isMoment (s : List Char) : Bool :=
  match afterDate? s with
  | some [] => true
  | some (c :: s) =>
    (c = 'T' || c = 't' || c = ' ') &&
      match afterTime? s with
      | some s => isOffset s
      | none => false
  | none => afterTime? s == some []

/-! ### Values -/

/-- The value that a bare word stands for. -/
def value? (s : List Char) : Option Value :=
  if s = "true".toList then some (.boolean true)
  else if s = "false".toList then some (.boolean false)
  else
    let (neg, name) := readSign s
    if name = "inf".toList then some (.float (.infinite neg))
    else if name = "nan".toList then some (.float .nan)
    else match integer? s, decimal? s with
      | some i, _ => some (.integer i)
      | none, some x =>
        let x := x.toFloating .double
        some (if x.isFinite then .float x else .oversized)
      | none, none => if isMoment s then some .date else none

end Mockup.Toml
