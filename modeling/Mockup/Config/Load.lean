import Mockup.Config.Schema
import Mockup.Disk
import Mockup.Text.Location
import Mockup.Toml.Reader

/-! Loading a configuration from a text or a file. -/

namespace Mockup

mutual

/-- All written numbers fit 64 bits, integers with a sign and floats as doubles. -/
def Value.isMeasured : Value → Bool
  | .integer i => -(Number.twoTo 63) ≤ i && i < Number.twoTo 63
  | .oversized => false
  | .array ns => Value.areMeasured ns
  | .table es => Value.haveMeasured es
  | _ => true

def Value.areMeasured : List Node → Bool
  | [] => true
  | ⟨_, v⟩ :: ns => v.isMeasured && Value.areMeasured ns

def Value.haveMeasured : List Entry → Bool
  | [] => true
  | ⟨_, ⟨_, v⟩⟩ :: es => v.isMeasured && Value.haveMeasured es

end

namespace Config

/-- Why no configuration was loaded. -/
inductive LoadError where
  | unreadable (path : String) (cause : DiskError)
  | malformed
  | unfit (message : String)
  | flawed (flaw : Flaw)
  deriving DecidableEq, Repr

/-- The fault, and the place in the text where it is. -/
def Fault.located (text : String) (f : Fault) : String :=
  let loc := Text.locate (Text.Utf8.encode text) f.extent.start
  Text.excerpt "TOML parse error" text loc (f.extent.stop - f.extent.start) ++
    f.cause.message .toml ++ "\n"

def LoadError.message : LoadError → String
  | unreadable path cause => "failed to read config file " ++ path ++ ": " ++ cause.message
  | malformed => "failed to parse config"
  | unfit message => message
  | flawed flaw => flaw.message

/-- The configuration in a TOML text, not yet validated. A text with a number that does not fit 64
bits is malformed, unless the number is taken all the same. -/
def ofToml (text : String) : Except LoadError Config :=
  match Toml.read? text.toList with
  | none => .error .malformed
  | some n =>
    match record.decode .toml n with
    | .ok c => .ok c
    | .error f =>
      if n.value.isMeasured then .error (.unfit ("failed to parse config: " ++ f.located text))
      else .error .malformed

def ofJson (j : Json) : Except LoadError Config :=
  match record.decode .json j.node with
  | .ok c => .ok c
  | .error f => .error (.unfit (f.cause.message .json))

/-- The configuration in a file, validated. -/
def load (d : Disk) (path : String) : Except LoadError Config := do
  match d.readText path with
  | .error e => throw (.unreadable path e)
  | .ok text =>
    let c ← ofToml text
    match c.validate with
    | .ok () => return c
    | .error flaw => throw (.flawed flaw)

/-- Without a file the defaults hold. -/
def loadOrDefault (d : Disk) (path : Option String) : Except LoadError Config :=
  path.elim (.ok {}) (load d)

end Config

end Mockup
