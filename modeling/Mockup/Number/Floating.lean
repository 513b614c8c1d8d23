import Mockup.Number.Power

/-! Binary floating-point numbers of a given precision, as exact multiples of powers of two.
Rounding takes a ratio to the nearest number of the format; a tie goes to the even significand. -/

namespace Mockup.Number

/-- The bits of a significand, and the least and greatest exponent that its unit may have. -/
structure Format where
  precision : Nat
  minExponent : Int
  maxExponent : Int

def Format.single : Format := ⟨24, -149, 104⟩

def Format.double : Format := ⟨53, -1074, 971⟩

/-- A signed `significand * 2 ^ exponent`, an infinity, or no number. -/
inductive Floating where
  | finite (negative : Bool) (significand : Nat) (exponent : Int)
  | infinite (negative : Bool)
  | nan
  deriving DecidableEq, Repr

/-- Division to the nearest natural number; a half goes to the even neighbour. -/
def roundDiv (n d : Nat) : Nat :=
  let q := n / d
  let r := 2 * (n % d)
  if d < r || (r == d && q % 2 == 1) then q + 1 else q

/-- The ratio `n / d` divided by `2 ^ e`, as a ratio. -/
def scaleDown (n d : Nat) : Int → Nat × Nat
  | .ofNat e => (n, d * twoTo e)
  | .negSucc e => (n * twoTo (e + 1), d)

/-- The greatest `e` with `2 ^ e ≤ n / d`, for positive `n` and `d`. -/
def binaryLog (n d : Nat) : Int :=
  let e : Int := (n.log2 : Int) - d.log2
  let (a, b) := scaleDown n d e
  if b ≤ a then e else e - 1

namespace Format

/-- The number of the format nearest to `n / d`. -/
def round (f : Format) (negative : Bool) (n d : Nat) : Floating :=
  if n = 0 then .finite negative 0 f.minExponent
  else
    let e := max f.minExponent (binaryLog n d - (f.precision - 1))
    let (a, b) := scaleDown n d e
    let m := roundDiv a b
    let (m, e) := if m = twoTo f.precision then (twoTo (f.precision - 1), e + 1) else (m, e)
    if f.maxExponent < e then .infinite negative else .finite negative m e

/-- The number of the format nearest to a number of another one. -/
def convert (f : Format) : Floating → Floating
  | .finite s m (.ofNat e) => f.round s (m * twoTo e) 1
  | .finite s m (.negSucc e) => f.round s m (twoTo (e + 1))
  | x => x

/-- The number of the format nearest to an integer. -/
def ofInt (f : Format) (i : Int) : Floating := f.round (i < 0) i.natAbs 1

end Format

namespace Floating

def isFinite : Floating → Bool
  | finite .. => true
  | _ => false

/-- The value lies between zero and the natural number `n`, the ends included. -/
def isBetweenZeroAnd (n : Nat) : Floating → Bool
  | finite s m e =>
    let (a, b) := scaleDown n 1 e
    m * b ≤ a && (m == 0 || !s)
  | _ => false

def negate : Floating → Floating
  | finite s m e => finite (!s) m e
  | infinite s => infinite (!s)
  | nan => nan

end Floating

end Mockup.Number
