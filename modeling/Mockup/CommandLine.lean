import Mockup.Config
import Mockup.Network.Url.Reader
import Mockup.Text.Similarity

/-! The command line. Each switch stands for a setting that overrides the configuration; a setting
that is not switched is taken from the environment, if it is there. -/

namespace Mockup.CommandLine

open Network

inductive Switch where
  | config | listen | baseUrl | help
  deriving DecidableEq, Repr

namespace Switch

def all : List Switch := [config, listen, baseUrl, help]

/-- The switches that take a value. -/
def settings : List Switch := [config, listen, baseUrl]

def long : Switch → String
  | config => "config"
  | listen => "listen"
  | baseUrl => "ollama-url"
  | help => "help"

def short? : Switch → Option Char
  | config => some 'c'
  | help => some 'h'
  | _ => none

/-- What stands for the value, if there is one. -/
def placeholder? : Switch → Option String
  | config => some "CONFIG"
  | listen => some "LISTEN"
  | baseUrl => some "OLLAMA_URL"
  | help => none

/-- The variable of the environment that stands in for the switch. -/
def envVariable? (s : Switch) : Option String := s.placeholder?.map ("FIGURA_" ++ ·)

def purpose : Switch → String
  | config => "Path to configuration file; built-in defaults are used when omitted"
  | listen => "Override the listen address"
  | baseUrl => "Override the Ollama base URL"
  | help => "Print help"

/-- The switch with its placeholder. -/
def usage (s : Switch) : String :=
  "--" ++ s.long ++ ((s.placeholder?.map fun p => " <" ++ p ++ ">").getD "")

def takesValue (s : Switch) : Bool := s.placeholder?.isSome

def ofLong? (name : String) : Option Switch := all.find? (·.long == name)

def ofShort? (c : Char) : Option Switch := all.find? (·.short? == some c)

/-- Words less similar than this are not alike. -/
def leastSimilarity : Rat := 7 / 10

/-- The switch that is most like the name, if one is like it at all; of equals the last. -/
def like? (name : String) : Option Switch :=
  let rate (s : Switch) : Rat := Text.similarity name.toList s.long.toList
  (all.filter fun s => leastSimilarity ≤ rate s).foldl (fun best s =>
    match best with
    | some b => if rate s < rate b then some b else some s
    | none => some s) none

end Switch

/-- What the command line and the environment set. -/
structure Overrides where
  config : Option String := none
  listen : Option SocketAddress := none
  baseUrl : Option Url := none

/-- A configuration with the settings that are given in the place of its own. -/
def Overrides.apply (o : Overrides) (c : Config) : Config :=
  { c with
    server := { c.server with listenAddress := o.listen.getD c.server.listenAddress }
    backend := { c.backend with baseUrl := o.baseUrl.getD c.backend.baseUrl } }

/-! ### Errors -/

/-- Why a command line is refused. `used` are the switches that were given. -/
inductive UsageError where
  | unknown (argument : String)
  | unknownSwitch (name : String) (like : Option Switch) (used : List Switch)
  | needlessValue (switch : Switch) (value : String) (used : List Switch)
  | missingValue (switch : Switch)
  | repeated (switch : Switch)
  | badValue (switch : Switch) (value cause : String)
  deriving DecidableEq, Repr

def programName : String := "figura"

namespace UsageError

/-- How the program is used, with these switches. -/
def usageLine (switches : List Switch) : String :=
  let shown := if switches.isEmpty then ["[OPTIONS]"] else switches.map Switch.usage
  "\n\nUsage: " ++ String.intercalate " " (programName :: shown)

def hint : String := "\n\nFor more information, try '--help'.\n"

def addNew (s : Switch) (used : List Switch) : List Switch :=
  if used.contains s then used else used ++ [s]

/-- What is wrong, without the usage and the hint. -/
def reason : UsageError → String
  | unknown argument => "unexpected argument '" ++ argument ++ "' found"
  | unknownSwitch name like _ =>
    "unexpected argument '--" ++ name ++ "' found" ++
      match like with
      | some s => "\n\n  tip: a similar argument exists: '--" ++ s.long ++ "'"
      | none => ""
  | needlessValue s value _ =>
    "unexpected value '" ++ value ++ "' for '" ++ s.usage ++ "' found; no more were expected"
  | missingValue s => "a value is required for '" ++ s.usage ++ "' but none was supplied"
  | repeated s => "the argument '" ++ s.usage ++ "' cannot be used multiple times"
  | badValue s value cause =>
    "invalid value '" ++ value ++ "' for '" ++ s.usage ++ "': " ++ cause

/-- The usage that is shown with an error. -/
def usage : UsageError → String
  | unknown _ | repeated _ => usageLine []
  | unknownSwitch _ (some like) used => usageLine (addNew like used)
  | unknownSwitch _ none used => usageLine used
  | needlessValue s _ used => usageLine (addNew s used)
  | missingValue _ | badValue .. => ""

def message (e : UsageError) : String := "error: " ++ e.reason ++ e.usage ++ hint

end UsageError

/-! ### Help -/

/-- The width of the widest switch in the help. -/
def helpWidth : Nat := 29

/-- A switch as the help shows it. -/
def helpColumn (s : Switch) : String :=
  let short := match s.short? with
    | some c => "-" ++ String.ofList [c] ++ ", "
    | none => "    "
  let text := short ++ s.usage
  text ++ String.ofList (List.replicate (helpWidth - text.length) ' ')

def helpLine (environment : String → Option String) (s : Switch) : String :=
  "  " ++ helpColumn s ++ "  " ++ s.purpose ++
    match s.envVariable? with
    | some v => " [env: " ++ v ++ "=" ++ (environment v).getD "" ++ "]"
    | none => ""

def help (environment : String → Option String) : String :=
  "Turns UI design images into Angular components using local Ollama models\n\nUsage: " ++
    programName ++ " [OPTIONS]\n\nOptions:\n" ++
    String.join (Switch.all.map fun s => helpLine environment s ++ "\n")

/-! ### Reading -/

/-- What a command line asks for, unless it is refused. -/
inductive Command where
  | help
  | run (overrides : Overrides)

/-- What has been read: the switches with a value, what they set, a switch that may still take a
value or has just taken one, and whether only arguments follow. -/
structure Progress where
  given : List Switch := []
  overrides : Overrides := {}
  pending : Option (Switch × Option String) := none
  trailing : Bool := false

namespace Progress

/-- The value of a setting. -/
def take (p : Progress) (s : Switch) (value : String) : Except UsageError Progress := do
  if p.given.contains s then throw (.repeated s)
  let p := { p with given := p.given ++ [s] }
  match s with
  | .config =>
    if value.isEmpty then throw (.missingValue s)
    return { p with overrides := { p.overrides with config := some value } }
  | .listen =>
    match SocketAddress.ofText? value.toList with
    | some a => return { p with overrides := { p.overrides with listen := some a } }
    | none => throw (.badValue s value "invalid socket address syntax")
  | .baseUrl =>
    match Url.ofText value.toList with
    | .ok u => return { p with overrides := { p.overrides with baseUrl := some u } }
    | .error e => throw (.badValue s value e.message)
  | .help => return p

/-- Ends the switch that is being read. -/
def settle (p : Progress) : Except UsageError Progress :=
  match p.pending with
  | none => .ok p
  | some (s, none) => .error (.missingValue s)
  | some (s, some value) => { p with pending := none }.take s value

/-- The switches that are told in an error. -/
def used (p : Progress) : List Switch :=
  match p.pending with
  | some (s, some _) => UsageError.addNew s p.given
  | _ => p.given

/-- A switch and the value that is written with it; none is left if it asks for help. -/
def switch (p : Progress) (s : Switch) (value : Option String) :
    Except UsageError (Option Progress) := do
  let p ← p.settle
  if s = .help then return none
  match value with
  | some v => return some (← p.take s v)
  | none => return some { p with pending := some (s, none) }

/-- A name after two hyphens, with the value after its equals sign. -/
def longSwitch (p : Progress) (s : List Char) : Except UsageError (Option Progress) :=
  let name := String.ofList (s.takeWhile (· ≠ '='))
  let value := match s.dropWhile (· ≠ '=') with
    | _ :: v => some (String.ofList v)
    | [] => none
  match Switch.ofLong? name, value with
  | none, _ => .error (.unknownSwitch name (Switch.like? name) p.used)
  | some s, value =>
    match s.takesValue, value with
    | false, some v => .error (.needlessValue s v p.used)
    | _, value => p.switch s value

/-- A letter after a hyphen, with the value that follows it at once. -/
def shortSwitch (p : Progress) (c : Char) (s : List Char) : Except UsageError (Option Progress) :=
  match Switch.ofShort? c with
  | none => .error (.unknown ("-" ++ String.ofList [c]))
  | some switch =>
    let value := match s with
      | [] => none
      | '=' :: v => some (String.ofList v)
      | v => some (String.ofList v)
    p.switch switch value

/-- An argument that is no switch, which only a pending switch takes. -/
def plain (p : Progress) (argument : String) : Except UsageError (Option Progress) :=
  match p.trailing, p.pending with
  | false, some (s, none) => .ok (some { p with pending := some (s, some argument) })
  | _, _ => .error (.unknown argument)

def step (p : Progress) (argument : String) : Except UsageError (Option Progress) :=
  if p.trailing then p.plain argument
  else match argument.toList with
    | ['-', '-'] => .ok (some { p with trailing := true })
    | '-' :: '-' :: s => p.longSwitch s
    | '-' :: c :: s => p.shortSwitch c s
    | _ => p.plain argument

/-- All arguments; none is left if help is asked for. -/
def steps (p : Progress) : List String → Except UsageError (Option Progress)
  | [] => p.settle.map some
  | argument :: rest => do
    match ← p.step argument with
    | some p => p.steps rest
    | none => return none

/-- The settings that the environment stands in for. -/
def complete (environment : String → Option String) (p : Progress) : Except UsageError Progress :=
  Switch.settings.foldlM (fun p s =>
    if p.given.contains s then .ok p
    else match s.envVariable?.bind environment with
      | some value => p.take s value
      | none => .ok p) { p with pending := none }

end Progress

def read (environment : String → Option String) (arguments : List String) :
    Except UsageError Command := do
  match ← Progress.steps {} arguments with
  | none => return .help
  | some p => return .run (← p.complete environment).overrides

end Mockup.CommandLine
