import Mockup.Number.Floating

/-! Decimal numbers: a signed natural number times a power of ten. The shortest decimal of a
floating-point number has the fewest digits that read back as it and is the nearest of those. -/

namespace Mockup.Number

structure Decimal where
  negative : Bool
  significand : Nat
  exponent : Int
  deriving DecidableEq, Repr

def digitChar (n : Nat) : Char := Char.ofNat (48 + n % 10)

/-- The decimal digits of a natural number, zero being one digit. -/
def digits (n : Nat) : List Char := (Nat.toDigits 10 n)

/-- The ratio `n / d` divided by `10 ^ e`, as a ratio. -/
def scaleDownTen (n d : Nat) : Int → Nat × Nat
  | .ofNat e => (n, d * tenTo e)
  | .negSucc e => (n * tenTo (e + 1), d)

/-- The greatest `e` with `10 ^ e ≤ n / d`, for positive `n` and `d`. -/
def decimalLog (n d : Nat) : Int :=
  if d ≤ n then (digits (n / d)).length - 1
  else
    let c := (d + n - 1) / n
    if c = 1 then 0 else -((digits (c - 1)).length : Int)

namespace Decimal

/-- The decimal without trailing zeros in its significand. -/
def trimZeros : Nat → Nat → Int → Nat × Int
  | 0, n, e => (n, e)
  | fuel + 1, n, e => if n ≠ 0 ∧ n % 10 = 0 then trimZeros fuel (n / 10) (e + 1) else (n, e)

/-- The nearer of the two neighbours of `v / d` on the grid `10 ^ g`, if one lies between `lo / d`
and `hi / d`. -/
def neighbour? (closed : Bool) (v lo hi d : Nat) (g : Int) : Option Nat :=
  let inside (c : Nat) : Bool :=
    -- `c * 10 ^ g` against `lo / d` and `hi / d`
    let (a, b) := scaleDownTen c 1 (-g)
    if closed then lo * b ≤ a * d && a * d ≤ hi * b else lo * b < a * d && a * d < hi * b
  let (a, b) := scaleDownTen v d g
  let c := a / b
  let r := 2 * (a % b)
  match inside c, inside (c + 1) with
  | true, true => some (if b < r || (r == b && c % 2 == 1) then c + 1 else c)
  | true, false => some c
  | false, true => some (c + 1)
  | false, false => none

/-- The first of the next `fuel` grids, each finer than the last, with a neighbour inside. -/
def firstGrid (closed : Bool) (v lo hi d : Nat) : Nat → Int → Option (Nat × Int)
  | 0, _ => none
  | fuel + 1, g =>
    match neighbour? closed v lo hi d g with
    | some c => some (c, g)
    | none => firstGrid closed v lo hi d fuel (g - 1)

/-- The shortest decimal that rounds to `m * 2 ^ e`, the nearest of those. -/
def shortest (f : Format) (negative : Bool) (m : Nat) (e : Int) : Decimal :=
  if m = 0 then ⟨negative, 0, 0⟩
  else
    let lower := if m = twoTo (f.precision - 1) && f.minExponent < e then 1 else 2
    -- four times the number, and the ends of its interval, over a common denominator
    let (u, d) := scaleDown 1 1 (2 - e)
    let v := 4 * m * u
    let k := decimalLog v d
    match firstGrid (m % 2 == 0) v ((4 * m - lower) * u) ((4 * m + 2) * u) d 17 k with
    | some (c, g) =>
      let (n, g) := trimZeros 20 c g
      ⟨negative, n, g⟩
    | none => ⟨negative, m, 0⟩

/-- The number of the format nearest to the decimal. Exponents beyond any format are cut short. -/
def toFloating (f : Format) (x : Decimal) : Floating :=
  let magnitude : Int := (digits x.significand).length + x.exponent
  if x.significand = 0 || magnitude < -400 then f.round x.negative 0 1
  else if 400 < magnitude then .infinite x.negative
  else
    let (n, d) := scaleDownTen x.significand 1 (-x.exponent)
    f.round x.negative n d

def sign (x : Decimal) : List Char := if x.negative then ['-'] else []

/-- Positional notation. A whole number is followed by `suffix`. -/
def positional (x : Decimal) (suffix : List Char) : List Char :=
  let ds := digits x.significand
  x.sign ++
    match x.exponent with
    | .ofNat e => ds ++ (if x.significand = 0 then [] else List.replicate e '0') ++ suffix
    | .negSucc e =>
      let places := e + 1
      let ds := List.replicate (places + 1 - ds.length) '0' ++ ds
      ds.take (ds.length - places) ++ '.' :: ds.drop (ds.length - places)

/-- One digit before the point, and a signed exponent. -/
def scientific (x : Decimal) : List Char :=
  let ds := digits x.significand
  let e : Int := x.exponent + ds.length - 1
  x.sign ++ ds.take 1 ++ (if ds.length = 1 then [] else '.' :: ds.drop 1) ++
    'e' :: (if e < 0 then '-' else '+') :: digits e.natAbs

/-- The place of the decimal point: the number of digits before it. -/
def pointPlace (x : Decimal) : Int := (digits x.significand).length + x.exponent

end Decimal

/-! ### Reading -/

def isDigit (c : Char) : Bool := '0' ≤ c && c ≤ '9'

def digitValue (c : Char) : Nat := c.toNat - 48

/-- The value of a character that is a decimal digit. -/
def digit (c : Char) : Fin 10 := ⟨digitValue c % 10, Nat.mod_lt _ (by decide)⟩

def ofDigits (ds : List Char) : Nat := ds.foldl (fun n c => 10 * n + digitValue c) 0

/-- The value of a digit, up to that of the letter f. -/
def digitValue? (c : Char) : Option Nat :=
  if '0' ≤ c && c ≤ '9' then some (c.toNat - 48)
  else if 'a' ≤ c && c ≤ 'f' then some (c.toNat - 87)
  else if 'A' ≤ c && c ≤ 'F' then some (c.toNat - 55)
  else none

def isDigitIn (radix : Nat) (c : Char) : Bool := (digitValue? c).any (· < radix)

/-- The number that digits spell, if all of them are digits of the radix. -/
def ofDigitsIn? (radix : Nat) (s : List Char) : Option Nat := do
  let digits ← s.mapM fun c => (digitValue? c).filter (· < radix)
  return digits.foldl (fun n d => radix * n + d) 0

/-- The sign that a text may start with. -/
def readSign : List Char → Bool × List Char
  | '-' :: s => (true, s)
  | '+' :: s => (false, s)
  | s => (false, s)

/-- The exponent part, which may be missing; nothing may follow it. -/
def readExponent? : List Char → Option Int
  | [] => some 0
  | c :: s =>
    if c = 'e' || c = 'E' then
      let (neg, ds) := readSign s
      if ds.isEmpty || !ds.all isDigit then none
      else
        -- beyond eight digits every exponent says the same
        let n := if (ds.dropWhile (· == '0')).length ≤ 8 then ofDigits ds else tenTo 8
        some (if neg then -n else n)
    else none

/-- A decimal with an optional sign, point and exponent, and at least one digit. -/
def Decimal.ofText? (s : List Char) : Option Decimal := do
  let (neg, s) := readSign s
  let whole := s.takeWhile isDigit
  let s := s.dropWhile isDigit
  let (fraction, s) := match s with
    | '.' :: s => (s.takeWhile isDigit, s.dropWhile isDigit)
    | s => ([], s)
  if whole.isEmpty && fraction.isEmpty then none
  else
    let e ← readExponent? s
    some ⟨neg, ofDigits (whole ++ fraction), e - fraction.length⟩

namespace Floating

/-- A decimal, or the name of an infinity or of no number, in any letter case. -/
def ofText? (f : Format) (s : List Char) : Option Floating :=
  match Decimal.ofText? s with
  | some x => some (x.toFloating f)
  | none =>
    let (neg, w) := readSign s
    let w := w.map Char.toLower
    if w = "inf".toList || w = "infinity".toList then some (.infinite neg)
    else if w = "nan".toList then some .nan
    else none

/-- The shortest positional text that reads back as the number. -/
def text (f : Format) : Floating → List Char
  | finite s m e => (Decimal.shortest f s m e).positional []
  | infinite s => (if s then ['-'] else []) ++ "inf".toList
  | nan => "NaN".toList

def multiply (f : Format) : Floating → Floating → Floating
  | finite s m e, finite t n d =>
    let (a, b) := scaleDown (m * n) 1 (-(e + d))
    f.round (s != t) a b
  | infinite s, finite t _ _ | finite s _ _, infinite t | infinite s, infinite t =>
    infinite (s != t)
  | _, _ => nan

/-- The quotient by a number that is neither zero nor infinite. -/
def divide (f : Format) : Floating → Floating → Floating
  | finite s m e, finite t n d =>
    let (a, b) := scaleDown m n (d - e)
    f.round (s != t) a b
  | infinite s, finite t _ _ => infinite (s != t)
  | _, _ => nan

end Floating

end Mockup.Number
