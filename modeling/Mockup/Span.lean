import Mockup.Number.Decimal

/-! Lengths of time, exact to the nanosecond. -/

namespace Mockup

structure Span where
  nanoseconds : Nat
  deriving DecidableEq, Repr

namespace Span

open Number

def ofSeconds (n : Nat) : Span := ⟨n * tenTo 9⟩

def ofMilliseconds (n : Nat) : Span := ⟨n * tenTo 6⟩

def seconds (s : Span) : Nat := s.nanoseconds / tenTo 9

/-- The nanoseconds past the last whole second. -/
def remainder (s : Span) : Nat := s.nanoseconds % tenTo 9

/-- A multiple of `10 ^ places` units, as a decimal without trailing zeros. -/
def decimal (n places : Nat) : List Char :=
  let fraction := digits (n % tenTo places)
  let fraction := List.replicate (places - fraction.length) '0' ++ fraction
  let fraction := (fraction.reverse.dropWhile (· == '0')).reverse
  digits (n / tenTo places) ++ (if fraction.isEmpty then [] else '.' :: fraction)

/-- The span in the largest unit of which it is at least one. -/
def text (s : Span) : String :=
  let n := s.nanoseconds
  let (places, unit) :=
    if tenTo 9 ≤ n then (9, "s") else if tenTo 6 ≤ n then (6, "ms")
    else if tenTo 3 ≤ n then (3, "µs") else (0, "ns")
  String.ofList (decimal n places) ++ unit

end Span

end Mockup
