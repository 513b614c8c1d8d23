import Mockup.Document
import Mockup.Network.Url.Reader
import Mockup.Text.Quoted

/-! Decoding documents. A decoder takes a value or says where it is wrong and why. A record is
decoded from its defaults, which the entries of a table override one by one in the order of their
names; it is also decoded from an array of its fields in the order of their declaration. -/

namespace Mockup

/-- The notation that a document is written in. It decides a few rules and wordings. -/
inductive Dialect where
  | toml | json
  deriving DecidableEq, Repr

namespace Value

/-- A float with a point or an exponent. In TOML all floats are positional; in JSON those are whose
point is not far from their digits. -/
def floatText : Dialect → Number.Floating → List Char
  | .toml, .finite s m e => (Number.Decimal.shortest .double s m e).positional ['.', '0']
  | .json, .finite s m e =>
    let x := Number.Decimal.shortest .double s m e
    if x.significand = 0 || (-5 < x.pointPlace && x.pointPlace ≤ 16) then x.positional ['.', '0']
    else x.scientific
  | _, x => x.text .double

/-- How a message names a value. -/
def described (d : Dialect) : Value → String
  | null => "null"
  | boolean b => "boolean \x60" ++ toString b ++ "\x60"
  | integer i => "integer \x60" ++ toString i ++ "\x60"
  | float x => "floating point \x60" ++ String.ofList (floatText d x) ++ "\x60"
  | oversized => "floating point"
  | string s => "string " ++ Text.quoted s
  | array _ => "sequence"
  | date | table _ => "map"

/-- The kind of a value. -/
def kind : Value → String
  | null => "null"
  | boolean _ => "boolean"
  | integer _ => "integer"
  | float _ | oversized => "float"
  | string _ => "string"
  | date => "datetime"
  | array _ => "array"
  | table _ => "table"

end Value

namespace Config

/-! ### Faults -/

inductive Cause where
  | mistyped (found : Value) (expected : String)
  | outOfRange (found : Value) (expected : String)
  | unknownField (name : String) (fields : List String)
  | missingField (name : String)
  | tooShort (length : Nat) (expected : String) (fields : Nat)
  | tooLong (length : Nat)
  | unknownVariant (name : String) (variants : List String)
  | notVariant (found : Value)
  | variantCount (count : Nat)
  | variantContent (found : Value)
  | badAddress
  | badUrl (error : Network.UrlError) (text : String)

/-- What is wrong with a document, and where. -/
structure Fault where
  extent : Extent
  cause : Cause

def ticked (s : String) : String := "\x60" ++ s ++ "\x60"

/-- One of several names. -/
def alternatives : List String → String
  | [a, b] => ticked a ++ " or " ++ ticked b
  | names => "one of " ++ ", ".intercalate (names.map ticked)

def Cause.message (d : Dialect) : Cause → String
  | mistyped v expected => "invalid type: " ++ v.described d ++ ", expected " ++ expected
  | outOfRange v expected => "invalid value: " ++ v.described d ++ ", expected " ++ expected
  | unknownField name fields =>
    "unknown field " ++ ticked name ++ ", expected " ++ alternatives fields
  | missingField name => "missing field " ++ ticked name
  | tooShort n expected fields =>
    "invalid length " ++ toString n ++ ", expected struct " ++ expected ++ " with " ++
      toString fields ++ " elements"
  | tooLong n => "invalid length " ++ toString n ++ ", expected fewer elements in array"
  | unknownVariant name variants =>
    "unknown variant " ++ ticked name ++ ", expected " ++ alternatives variants
  | notVariant v =>
    match d with
    | .toml => "wanted string or table"
    | .json => "invalid type: " ++ v.described d ++ ", expected string or map"
  | variantCount n =>
    match d with
    | .toml =>
      if n = 0 then "wanted exactly 1 element, found 0 elements"
      else "wanted exactly 1 element, more than 1 element"
    | .json => "invalid value: map, expected map with a single key"
  | variantContent v =>
    match d, v with
    | .toml, .table _ => "expected empty table"
    | .toml, .array _ => "expected empty array"
    | .toml, v => "expected table, found " ++ v.kind
    | .json, v => "invalid type: " ++ v.described d ++ ", expected unit"
  | badAddress => "invalid socket address syntax"
  | badUrl e text => e.message ++ ": " ++ Text.quoted text

/-! ### Decoders -/

abbrev Decoder (α : Type) := Dialect → Node → Except Fault α

namespace Decoder

def mistyped {α : Type} (n : Node) (expected : String) : Except Fault α :=
  .error ⟨n.extent, .mistyped n.value expected⟩

def text (expected : String) : Decoder String := fun _ n =>
  match n.value with
  | .string s => .ok s
  | _ => mistyped n expected

def boolean : Decoder Bool := fun _ n =>
  match n.value with
  | .boolean b => .ok b
  | _ => mistyped n "a boolean"

/-- A natural number below a bound. -/
def natural (bound : Nat) (expected : String) : Decoder Nat := fun _ n =>
  match n.value with
  | .integer i =>
    if 0 ≤ i ∧ i < bound then .ok i.toNat else .error ⟨n.extent, .outOfRange n.value expected⟩
  | _ => mistyped n expected

/-- A number of single precision, rounded from an integer of 64 bits or a double. -/
def single : Decoder Number.Floating := fun _ n =>
  match n.value with
  | .integer i =>
    if -(Number.twoTo 63) ≤ i ∧ i < Number.twoTo 64 then .ok (Number.Format.single.ofInt i)
    else mistyped n "f32"
  | .float x => .ok (Number.Format.single.convert x)
  | _ => mistyped n "f32"

def address : Decoder Network.SocketAddress := fun _ n =>
  match n.value with
  | .string s =>
    match Network.SocketAddress.ofText? s.toList with
    | some a => .ok a
    | none => .error ⟨n.extent, .badAddress⟩
  | _ => mistyped n "socket address"

def url : Decoder Network.Url := fun _ n =>
  match n.value with
  | .string s =>
    match Network.Url.ofText s.toList with
    | .ok u => .ok u
    | .error e => .error ⟨n.extent, .badUrl e s⟩
  | _ => mistyped n "a string representing an URL"

def optional {α : Type} (decode : Decoder α) : Decoder (Option α) := fun d n =>
  match n.value with
  | .null => .ok none
  | _ => (decode d n).map some

/-- The value of a name. In JSON the name may be the key of null, in TOML of something empty. -/
def variant {α : Type} (variants : List (String × α)) : Decoder α := fun d n =>
  let named (e : Extent) (name : String) : Except Fault α :=
    match variants.find? (·.1 == name) with
    | some (_, a) => .ok a
    | none => .error ⟨e, .unknownVariant name (variants.map (·.1))⟩
  match n.value with
  | .string s => named n.extent s
  | .table [e] => do
    let a ← named e.key.extent e.name
    match d, e.node.value with
    | .json, .null | .toml, .array [] | .toml, .table [] => return a
    | _, v => throw ⟨e.node.extent, .variantContent v⟩
  | .table es => .error ⟨n.extent, .variantCount es.length⟩
  | v => .error ⟨n.extent, .notVariant v⟩

end Decoder

/-! ### Records -/

/-- A field of a record: its name, how a value for it changes the record, and whether a value must
be given. -/
structure Field (σ : Type) where
  name : String
  set : Dialect → Node → σ → Except Fault σ
  required : Bool := false

/-- A field that holds what a decoder makes of its value. -/
def Field.of {σ α : Type} (name : String) (decode : Decoder α) (put : σ → α → σ) : Field σ where
  name := name
  set d n r := (decode d n).map (put r)

structure Record (σ : Type) where
  name : String
  fields : List (Field σ)
  defaults : σ

namespace Record

variable {σ : Type}

def names (r : Record σ) : List String := r.fields.map (·.name)

/-- Overrides the field that an entry names. -/
def override (r : Record σ) (d : Dialect) (s : σ) (e : Entry) : Except Fault σ :=
  match r.fields.find? (·.name == e.name) with
  | some f => f.set d e.node s
  | none => .error ⟨e.key.extent, .unknownField e.name r.names⟩

/-- The first required field that no entry names. -/
def missing? (r : Record σ) (es : List Entry) : Option (Field σ) :=
  r.fields.find? fun f => f.required && !es.any (·.name == f.name)

def ofTable (r : Record σ) (d : Dialect) (at_ : Extent) (es : List Entry) : Except Fault σ := do
  let s ← es.foldlM (r.override d) r.defaults
  match r.missing? es with
  | some f => throw ⟨at_, .missingField f.name⟩
  | none => return s

/-- Items beyond the last field are an error in JSON and do not count in TOML. -/
def ofArray (r : Record σ) (d : Dialect) (at_ : Extent) (ns : List Node) : Except Fault σ := do
  let s ← (r.fields.zip ns).foldlM (fun s (f, n) => f.set d n s) r.defaults
  match (r.fields.drop ns.length).findIdx? (·.required) with
  | some i => throw ⟨at_, .tooShort (ns.length + i) r.name r.fields.length⟩
  | none =>
    if d = .json && r.fields.length < ns.length then throw ⟨at_, .tooLong ns.length⟩
    return s

/-- The name of the only entry that a date has when it is taken for a table. -/
def dateField : String := "$__toml_private_datetime"

def decode (r : Record σ) : Decoder σ := fun d n =>
  match n.value with
  | .table es => r.ofTable d n.extent es
  | .array ns => r.ofArray d n.extent ns
  | .date => .error ⟨n.extent, .unknownField dateField r.names⟩
  | _ => Decoder.mistyped n ("struct " ++ r.name)

end Record

end Config

end Mockup
