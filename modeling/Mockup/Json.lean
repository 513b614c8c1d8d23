import Mockup.Number.Decimal

/-! JSON values. The members of an object keep the order in which they were written; of members
with one name the last counts. A number keeps the digits that it was written with. -/

namespace Mockup

/-- A number as it is written: a whole part, digits after the point, an exponent. -/
structure Numeral where
  negative : Bool := false
  whole : Nat
  fraction : List (Fin 10) := []
  exponent : Option Int := none
  deriving DecidableEq, Repr

inductive Json where
  | null
  | bool (b : Bool)
  | number (n : Numeral)
  | string (s : String)
  | array (items : List Json)
  | object (members : List (String × Json))
  deriving Repr

namespace Numeral

def ofNat (n : Nat) : Numeral where
  whole := n

def ofInt (i : Int) : Numeral where
  negative := i < 0
  whole := i.natAbs

/-- Neither a point nor an exponent is written. -/
def isWhole (n : Numeral) : Bool := n.fraction.isEmpty && n.exponent.isNone

/-- The integer, if the numeral is one that 64 bits hold. Minus zero is none. -/
def toInt? (n : Numeral) : Option Int :=
  if !n.isWhole then none
  else if n.negative then if 0 < n.whole && n.whole ≤ Number.twoTo 63 then some (-n.whole) else none
  else if n.whole < Number.twoTo 64 then some n.whole
  else none

/-- Appends digits to a significand of at most 64 bits, up to the first that does not fit; returns
the digits that are left. -/
def fill (m : Nat) : List (Fin 10) → Nat × List (Fin 10)
  | [] => (m, [])
  | d :: ds => if 10 * m + d.val < Number.twoTo 64 then fill (10 * m + d.val) ds else (m, d :: ds)

def wholeDigits (n : Numeral) : List (Fin 10) :=
  (Number.digits n.whole).map Number.digit

/-- The significand of at most 64 bits that is kept, and the decimal exponent that goes with it.
The whole digits that are dropped raise the exponent, the digits of the fraction that are kept lower
it, and the digits of the fraction that are dropped do nothing. -/
def significand (n : Numeral) : Nat × Int :=
  let (m, dropped) := fill 0 n.wholeDigits
  let (m, rest) := fill m n.fraction
  (m, dropped.length - (n.fraction.length - rest.length : Nat) + n.exponent.getD 0)

/-- Divides by `10 ^ 308` as long as the exponent is below what a double holds. -/
def scaleTiny : Nat → Number.Floating → Int → Number.Floating × Int
  | 0, x, e => (x, e)
  | fuel + 1, x, e =>
    if -308 ≤ e then (x, e)
    else
      let tenTo308 := (⟨false, 1, 308⟩ : Number.Decimal).toFloating .double
      scaleTiny fuel (Number.Floating.divide .double x tenTo308) (e + 308)

/-- The double that a numeral stands for: the significand, then its product with or quotient by a
power of ten, each rounded. Nothing is left of a significand after four quotients. There is none
when the product overflows. -/
def toDouble? (n : Numeral) : Option Number.Floating :=
  let (m, e) := n.significand
  let x := Number.Format.double.ofInt m
  let signed (x : Number.Floating) := if n.negative then x.negate else x
  let power (k : Nat) := (⟨false, 1, k⟩ : Number.Decimal).toFloating .double
  if m = 0 then some (signed x)
  else if 308 < e then none
  else if 0 ≤ e then
    let y := Number.Floating.multiply .double x (power e.toNat)
    if y.isFinite then some (signed y) else none
  else
    let (x, e) := scaleTiny 4 x e
    some (signed (if e < -308 then x else Number.Floating.divide .double x (power e.natAbs)))

/-- The numeral of a decimal: at least one digit on either side of the point, or an exponent where
the point would stand more than five zeros before or thirteen digits after the first digit. -/
def ofDecimal (x : Number.Decimal) : Numeral :=
  let ds := (Number.digits x.significand).map Number.digit
  let place := x.pointPlace
  let toNat (ds : List (Fin 10)) := ds.foldl (fun n d => 10 * n + d.val) 0
  if x.significand = 0 then { negative := x.negative, whole := 0, fraction := [0] }
  else if 0 < place && place ≤ 13 then
    let fraction := ds.drop place.toNat
    { negative := x.negative
      whole := toNat (ds.take place.toNat) * Number.tenTo (place.toNat - ds.length)
      fraction := if fraction.isEmpty then [0] else fraction }
  else if -6 < place && place ≤ 0 then
    { negative := x.negative, whole := 0, fraction := List.replicate place.natAbs 0 ++ ds }
  else
    { negative := x.negative
      whole := toNat (ds.take 1)
      fraction := ds.drop 1
      exponent := some (place - 1) }

end Numeral

namespace Json

/-- The value of the last member of that name. -/
def member? (name : String) : Json → Option Json
  | object members => (members.reverse.find? (·.1 == name)).map (·.2)
  | _ => none

/-- A number of single precision; what is not finite is written as null. -/
def ofSingle : Number.Floating → Json
  | .finite s m e => number (.ofDecimal (.shortest .single s m e))
  | _ => null

def ofNat (n : Nat) : Json := number (.ofNat n)

end Json

end Mockup
