import Mockup.Span
import Mockup.Text.Location

/-! Written lengths of time: terms of a number and a unit, added up or multiplied. Every value on
the way must fit 64 bits of nanoseconds. -/

namespace Mockup.Span

open Number

inductive Unit where
  | year | month | week | day | hour | minute | second | millisecond | microsecond | nanosecond
  deriving DecidableEq, Repr

namespace Unit

def nanoseconds : Unit → Nat
  | year => 365 * 86400 * tenTo 9
  | month => 30 * 86400 * tenTo 9
  | week => 7 * 86400 * tenTo 9
  | day => 86400 * tenTo 9
  | hour => 3600 * tenTo 9
  | minute => 60 * tenTo 9
  | second => tenTo 9
  | millisecond => tenTo 6
  | microsecond => tenTo 3
  | nanosecond => 1

/-- The spellings of each unit, in small letters. -/
def spellings : List (Unit × List String) :=
  [(year, ["y", "year", "years"]), (month, ["mon", "month", "months"]),
   (week, ["w", "week", "weeks"]), (day, ["d", "day", "days"]), (hour, ["h", "hr", "hour", "hours"]),
   (minute, ["m", "min", "minute", "minutes"]), (second, ["s", "sec", "second", "seconds"]),
   (millisecond, ["ms", "msec", "millisecond", "milliseconds"]),
   (microsecond, ["us", "usec", "usecond", "microsecond", "microseconds", "µs", "µsec", "µsecond"]),
   (nanosecond, ["ns", "nsec", "nanosecond", "nanoseconds"])]

/-- The unit of a spelling in any letter case. -/
def ofWord? (w : List Char) : Option Unit :=
  let w := String.ofList (w.map Char.toLower)
  (spellings.find? fun (_, names) => names.contains w).map (·.1)

end Unit

inductive Operator where
  | plus | times
  deriving DecidableEq, Repr

def Operator.text : Operator → String
  | plus => "+"
  | times => "*"

structure Term where
  digits : List Char
  unit : Unit
  deriving DecidableEq, Repr

/-! ### Values -/

inductive ValueError where
  | overflow
  | tooManyDigits
  | mixed (first other : Operator)
  deriving DecidableEq, Repr

def ValueError.message : ValueError → String
  | overflow => "overflow error"
  | tooManyDigits => "number too large to fit in target type"
  | mixed first other => "not support '" ++ first.text ++ "' with '" ++ other.text ++ "' calculate"

/-- A value that fits 64 bits. -/
def fit (n : Nat) : Except ValueError Nat := if n < twoTo 64 then .ok n else .error .overflow

def Term.value (t : Term) : Except ValueError Nat :=
  let n := Number.ofDigits t.digits
  if n < twoTo 64 then fit (n * t.unit.nanoseconds) else .error .tooManyDigits

/-- The sum, or the product in seconds cut to whole nanoseconds. -/
def Operator.apply : Operator → Nat → Nat → Except ValueError Nat
  | plus, a, b => fit (a + b)
  | times, a, b => fit (a * b / tenTo 9)

/-- The terms after the first, put together by one operator. -/
def combine (op : Operator) (acc : Nat) : List (Operator × Term) → Except ValueError Nat
  | [] => .ok acc
  | (o, t) :: rest =>
    if o = op then do combine op (← op.apply acc (← t.value)) rest
    else .error (.mixed op o)

/-- The terms after the first are put together before the first is. -/
def restValue (first : Nat) (rest : List (Operator × Term)) : Except ValueError Nat :=
  match rest with
  | [] => .ok first
  | (op, t) :: rest => do
    let acc ← combine op (← t.value) rest
    op.apply first acc

/-! ### Reading -/

inductive Expectation where
  | unit | operator | digits
  deriving DecidableEq, Repr

def Expectation.message : Expectation → String
  | unit => "expected [\"y\", \"mon\", \"w\", \"d\", \"h\", \"m\", \"s\", \"ms\", \"µs\", \"us\", \"ns\"]"
  | operator => "expected ['+', '*']"
  | digits => ""

def isSpace (c : Char) : Bool := c = ' ' || c = '\t' || c = '\r' || c = '\n'

def skip (s : List Char) : List Char := s.dropWhile isSpace

def isUnitChar (c : Char) : Bool := c.isAlpha || c = 'µ'

/-- What was expected at the point where this is left of the text. -/
abbrev Stop := List Char × Expectation

/-- A term and the blanks after it. A number without a unit counts seconds, and must end the text or
stand before an operator. -/
def readTerm (s : List Char) : Except Stop (Term × List Char) :=
  let digits := s.takeWhile Number.isDigit
  let r := skip (s.dropWhile Number.isDigit)
  let word := r.takeWhile isUnitChar
  if digits.isEmpty then .error (s, .digits)
  else if word.isEmpty then
    match r with
    | [] | '+' :: _ | '*' :: _ => .ok (⟨digits, .second⟩, r)
    | _ => .error (r, .unit)
  else match Unit.ofWord? word with
    | some u => .ok (⟨digits, u⟩, skip (r.dropWhile isUnitChar))
    | none => .error (r, .unit)

/-- The operator in front of a term, which may be missing. -/
def readOperator : List Char → Option (Operator × List Char)
  | '+' :: s => some (.plus, skip s)
  | '*' :: s => some (.times, skip s)
  | c :: s => if Number.isDigit c then some (.plus, c :: s) else none
  | [] => none

/-- The terms after the first. An operator without a term is where reading stops. -/
def readRest : Nat → List Char → Except Stop (List (Operator × Term))
  | _, [] => .ok []
  | 0, s => .error (s, .operator)
  | fuel + 1, s =>
    match readOperator s with
    | none => .error (s, .operator)
    | some (op, r) =>
      match readTerm r with
      | .error (_, .digits) => .error (s, .digits)
      | .error e => .error e
      | .ok (t, r) => (readRest fuel r).map ((op, t) :: ·)

/-! ### Errors -/

inductive ReadError where
  | empty
  | unexpected (text : String) (place : Nat) (expectation : Expectation)
  | first (text : String) (cause : ValueError)
  | value (cause : ValueError)
  deriving DecidableEq, Repr

/-- The text, and below it a pointer to a place in it. -/
def pointed (text : String) (place : Nat) : String :=
  if text.toList.contains '\n' then
    Text.excerpt "parse error" text (Text.locate (Text.Utf8.encode text) place) 0
  else text ++ "\n" ++ Text.spaces place ++ "^\n"

def ReadError.message : ReadError → String
  | empty => "Empty input"
  | unexpected text place e => pointed text place ++ e.message
  | first text cause => pointed text 0 ++ cause.message
  | value cause => cause.message

/-- The span that a text describes. The first term is valued before the rest is read. -/
def ofText (text : String) : Except ReadError Span :=
  let s := text.toList
  let stop : Stop → ReadError := fun (r, e) =>
    .unexpected text (text.utf8ByteSize - Text.Utf8.size r) e
  if s.isEmpty then .error .empty
  else match readTerm (skip s) with
    | .error e => .error (stop e)
    | .ok (t, r) =>
      match t.value with
      | .error e => .error (.first text e)
      | .ok first =>
        match readRest r.length r with
        | .error e => .error (stop e)
        | .ok rest =>
          match restValue first rest with
          | .error e => .error (.value e)
          | .ok n => .ok ⟨n⟩

end Mockup.Span
