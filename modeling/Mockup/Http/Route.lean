import Mockup.Http
import Mockup.Text.Quoted

/-! Patterns of paths. A name between braces stands for the rest of a segment, which must not be
empty, and a name with an asterisk for all that is left, to the end. A brace that is meant as such
is written twice. -/

namespace Mockup.Http

/-- Why a text is no pattern, or one that cannot be used. -/
inductive RouteError where
  | empty
  | relative
  | colonSegment
  | starSegment
  | badName (pattern : String)
  | crowdedSegment (pattern : String)
  | earlyRest (pattern : String)
  | tooManyNames
  | taken (method pattern : String)
  deriving DecidableEq, Repr

def RouteError.message : RouteError → String
  | empty => "Paths must start with a `/`. Use \"/\" for root routes"
  | relative => "Paths must start with a `/`"
  | colonSegment =>
    "Path segments must not start with `:`. For capture groups, use `\x7bcapture\x7d`. If you meant " ++
    "to literally match a segment starting with a colon, call `without_v07_checks` on the router."
  | starSegment =>
    "Path segments must not start with `*`. For wildcard capture, use `\x7b*wildcard\x7d`. If you " ++
    "meant to literally match a segment starting with an asterisk, call `without_v07_checks` on " ++
    "the router."
  | badName p =>
    "Invalid route " ++ Text.quoted p ++ ": Parameters must be registered with a valid name"
  | crowdedSegment p =>
    "Invalid route " ++ Text.quoted p ++ ": Only one parameter is allowed per path segment"
  | earlyRest p =>
    "Invalid route " ++ Text.quoted p ++
      ": Catch-all parameters are only allowed at the end of a route"
  | tooManyNames => "Too many route parameters."
  | taken method p =>
    "Overlapping method route. Handler for `" ++ method ++ " " ++ p ++ "` already exists"

/-- A part of a pattern: a character, the rest of a segment, the rest of the path. -/
inductive RoutePiece where
  | char (c : Char)
  | segment
  | rest
  deriving DecidableEq, Repr

abbrev Route := List RoutePiece

namespace Route

/-- A character of a pattern. A brace written twice is plain. -/
inductive Symbol where
  | opening | closing
  | plain (c : Char)
  deriving DecidableEq, Repr

def symbols : List Char → List Symbol
  | '\x7b' :: '\x7b' :: s => .plain '\x7b' :: symbols s
  | '\x7d' :: '\x7d' :: s => .plain '\x7d' :: symbols s
  | '\x7b' :: s => .opening :: symbols s
  | '\x7d' :: s => .closing :: symbols s
  | c :: s => .plain c :: symbols s
  | [] => []

/-- What follows the brace that closes a name, which holds neither asterisks nor slashes. -/
def afterName? : List Symbol → Option (List Symbol)
  | [] => none
  | .closing :: s => some s
  | x :: s => if x = .plain '*' || x = .plain '/' then none else afterName? s

/-- A name and what follows its brace. Only the first character may be an asterisk, and some other
follows it; the first character may be a slash. -/
def name? : List Symbol → Option (RoutePiece × List Symbol)
  | [] | .closing :: _ | .plain '\x7d' :: _ | .plain '*' :: .closing :: _ => none
  | .plain '*' :: s => (afterName? s).map (.rest, ·)
  | _ :: s => (afterName? s).map (.segment, ·)

/-- A name fills its segment to the end. -/
def endsSegment : List Symbol → Bool
  | [] | .plain '/' :: _ => true
  | _ => false

/-- Reads a pattern in which `names` more names may stand for segments. Each step takes a symbol,
which bounds `fuel`. -/
def readWithin (pattern : String) : (fuel names : Nat) → List Symbol → Except RouteError Route
  | 0, _, _ => .error (.badName pattern)
  | _, _, [] => .ok []
  | fuel + 1, names, .plain c :: s => (readWithin pattern fuel names s).map (.char c :: ·)
  | _ + 1, _, .closing :: _ => .error (.badName pattern)
  | fuel + 1, names, .opening :: s =>
    match name? s with
    | none => .error (.badName pattern)
    | some (piece, s) =>
      if !endsSegment s then .error (.crowdedSegment pattern)
      else match piece, names with
        | .segment, 0 => .error .tooManyNames
        | .segment, names + 1 => (readWithin pattern fuel names s).map (.segment :: ·)
        | piece, names => (readWithin pattern fuel names s).map (piece :: ·)

def maxNames : Nat := 25

/-- The first segment that starts with a mark of older patterns. -/
def oldMark? (pattern : String) : Option RouteError :=
  (pattern.toList.splitOn '/').findSome? fun segment =>
    match segment with
    | ':' :: _ => some .colonSegment
    | '*' :: _ => some .starSegment
    | _ => none

/-- The route of a pattern. -/
def ofText (pattern : String) : Except RouteError Route := do
  if pattern.isEmpty then throw .empty
  if pattern.toList.head? ≠ some '/' then throw .relative
  if let some e := oldMark? pattern then throw e
  let symbols := symbols pattern.toList
  let route ← readWithin pattern (symbols.length + 1) maxNames symbols
  if route.dropLast.contains .rest then throw (.earlyRest pattern)
  return route

def accepts : Route → List Char → Bool
  | [], s => s.isEmpty
  | .char c :: ps, d :: s => c == d && accepts ps s
  | .char _ :: _, [] => false
  | .segment :: ps, s =>
    !(s.takeWhile (· ≠ '/')).isEmpty && accepts ps (s.dropWhile (· ≠ '/'))
  | .rest :: _, s => !s.isEmpty

end Route

end Mockup.Http
