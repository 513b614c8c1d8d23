import Mockup.Number.Decimal
import Mockup.Telemetry
import Mockup.Text.Blank

/-! Which events are told. A filter is a list of directives between commas. A directive names a
target, a span between square brackets, fields between braces, and a level after an equals sign; a
level alone holds for all targets. For an event the most definite directive that fits it counts. -/

namespace Mockup.Telemetry

/-- What is told of the targets whose name starts like `target`, if they have the fields. -/
structure Directive where
  target : Option String := none
  span : Option String := none
  fields : List String := []
  /-- Some field is asked to have a value. -/
  hasValues : Bool := false
  /-- Events up to this rank are told. -/
  rank : Nat := Level.trace.rank
  deriving DecidableEq, Repr

/-- Why a text is no filter. -/
inductive FilterError where
  | badLevel
  | badDirective
  deriving DecidableEq, Repr

def FilterError.message : FilterError → String
  | badLevel =>
    "error parsing level filter: expected one of \"off\", \"error\", \"warn\", \"info\", \"debug\", " ++
      "\"trace\", or a number 0-5"
  | badDirective => "invalid filter directive"

/-- The names of the ranks, from the one at which nothing is told. -/
def rankNames : List String := ["off", "error", "warn", "info", "debug", "trace"]

/-- A rank by its number, which may have a sign, or by its name in letters of any case. -/
def rank? (s : List Char) : Option Nat :=
  let digits := match s with
    | '+' :: ds => ds
    | ds => ds
  if !digits.isEmpty && digits.all Number.isDigit then
    if Number.ofDigits digits < rankNames.length then some (Number.ofDigits digits) else none
  else rankNames.findIdx? fun name => name.toList == s.map Char.toLower

namespace Directive

/-- What is being read, and the place where it started. -/
inductive Reading where
  | start
  | name (first : Nat)
  | span (first : Nat)
  | field (first : Nat)
  | fields
  | target
  | level (first : Nat)

def slice (s : List Char) (first last : Nat) : String :=
  String.ofList ((s.drop first).take (last - first))

/-- A character with which a name may start. -/
def startsName (c : Char) : Bool :=
  c = '-' || c = ':' || c = '_' || c.isAlphanum || 127 < c.toNat

def addField (d : Directive) (s : String) : Except FilterError Directive :=
  if s.isEmpty then .error .badDirective
  else .ok { d with
    fields := d.fields ++ [String.ofList (s.toList.takeWhile (· ≠ '='))]
    hasValues := d.hasValues || s.toList.contains '=' }

/-- A name alone is a level, or else a target of which all is told. -/
def ofName (d : Directive) (s : String) : Directive :=
  match rank? s.toList with
  | some rank => { d with rank := rank, target := none }
  | none => { d with target := some s }

/-- No level after the equals sign means that all is told. -/
def withLevel (d : Directive) (s : String) : Except FilterError Directive :=
  if s.isEmpty then .ok d
  else match rank? s.toList with
    | some rank => .ok { d with rank := rank }
    | none => .error .badLevel

/-- The end of a directive. -/
def finish (s : List Char) (d : Directive) : Reading → Except FilterError Directive
  | .name first => .ok (d.ofName (slice s first s.length))
  | .level first => d.withLevel (slice s first s.length)
  | .target => .ok d
  | _ => .error .badDirective

/-- The character at a place. -/
def step (s : List Char) (d : Directive) (i : Nat) (c : Char) :
    Reading → Except FilterError (Directive × Reading)
  | .start =>
    if c = '[' then .ok (d, .span (i + 1))
    else if startsName c then .ok (d, .name i)
    else .error .badDirective
  | .name first =>
    if c = '=' then .ok ({ d with target := some (slice s first i) }, .level (i + 1))
    else if c = '[' then .ok ({ d with target := some (slice s first i) }, .span (i + 1))
    else .ok (d, .name first)
  | .span first =>
    let span := slice s first i
    if c = ']' then .ok ({ d with span := some span }, .target)
    else if c = '\x7b' then
      .ok ({ d with span := if span.isEmpty then none else some span }, .field (i + 1))
    else .ok (d, .span first)
  | .field first =>
    if c = '\x7d' then (d.addField (slice s first i)).map (·, .fields)
    else .ok (d, .field first)
  | .fields => if c = ']' then .ok (d, .target) else .error .badDirective
  | .target =>
    if c = '=' then .ok (d, .level (i + 1))
    else if c = '[' then .ok (d, .span (i + 1))
    else .error .badDirective
  | .level first => .ok (d, .level first)

/-- The characters from a place on. -/
def steps (s : List Char) : (d : Directive) → (i : Nat) → Reading → List Char →
    Except FilterError Directive
  | d, _, r, [] => d.finish s r
  | d, i, r, c :: cs => do
    let (d, r) ← d.step s i c r
    steps s d (i + 1) r cs

/-- Places are counted in the text without the blanks around it. -/
def ofText (s : List Char) : Except FilterError Directive :=
  steps s {} 0 .start (Text.trim s)

/-- A directive for a span, or for a field with a value, tells nothing outside of spans. -/
def isStatic (d : Directive) : Bool := d.span.isNone && !d.hasValues

def fits (d : Directive) (e : Event) : Bool :=
  d.target.all (fun t => t.toList.isPrefixOf e.target.toList) && d.fields.all e.names.contains

/-- How definite a directive is. -/
def weight (d : Directive) : Nat × Nat :=
  ((d.target.map (·.utf8ByteSize + 1)).getD 0, d.fields.length)

/-- `d` counts before `e`, of which it stands before. -/
def outranks (d e : Directive) : Bool :=
  let (a, b) := d.weight
  let (a', b') := e.weight
  a' < a || (a = a' && (b' < b || (b = b' && e.fields < d.fields)))

end Directive

/-- The directives of a filter. -/
abbrev Filter := List Directive

namespace Filter

/-- Without any directive only errors are told. -/
def ofText (s : String) : Except FilterError Filter := do
  let directives ← ((s.toList.splitOn ',').filter (!·.isEmpty)).mapM Directive.ofText
  return if directives.isEmpty then [{ rank := Level.error.rank }] else directives

/-- The most definite directive for an event; of equals the last. -/
def directive? (f : Filter) (e : Event) : Option Directive :=
  (f.filter fun d => d.isStatic && d.fits e).foldl (fun best d =>
    match best with
    | some b => if b.outranks d then some b else some d
    | none => some d) none

/-- An event is told up to the rank of its directive. -/
def tells (f : Filter) (e : Event) : Bool :=
  (f.directive? e).any fun d => e.level.rank ≤ d.rank

/-- The filter in the place of one that is not understood. -/
def fallback : Filter := [{ rank := Level.info.rank }]

/-- A filter, and what is said about a text that is none. -/
def ofTextOrFallback (s : String) : Filter × Option String :=
  match ofText s with
  | .ok f => (f, none)
  | .error e =>
    (fallback, some ("invalid log filter '" ++ s ++ "': " ++ e.message ++ ", falling back to 'info'"))

end Filter

end Mockup.Telemetry
