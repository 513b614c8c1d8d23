import Mockup.Json

/-! Documents: trees of values that a configuration is read from. Each value and each key knows the
piece of the text where it stands. The entries of a table are in the order of their names, and no
name comes twice. -/

namespace Mockup

/-- A piece of a text: its first byte, and the byte after its last. -/
structure Extent where
  start : Nat := 0
  stop : Nat := 0
  deriving DecidableEq, Repr

structure Key where
  name : String
  extent : Extent := {}
  deriving DecidableEq, Repr

mutual

inductive Value where
  | null
  | boolean (b : Bool)
  | integer (i : Int)
  | float (x : Number.Floating)
  /-- A written number that no double holds. -/
  | oversized
  | string (s : String)
  | date
  | array (items : List Node)
  | table (entries : List Entry)

structure Node where
  extent : Extent
  value : Value

structure Entry where
  key : Key
  node : Node

end

namespace Entry

def name (e : Entry) : String := e.key.name

/-- Entries in the order of their names; of entries with one name the last counts. -/
def sort (es : List Entry) : List Entry :=
  let es := es.foldl (fun kept e => e :: kept.filter (·.name != e.name)) []
  es.mergeSort fun a b => a.name ≤ b.name

end Entry

/-! ### Documents in JSON -/

/-- An integer where 64 bits hold one, a float otherwise. -/
def Numeral.value (n : Numeral) : Value :=
  match n.toInt?, n.toDouble? with
  | some i, _ => .integer i
  | none, some x => .float x
  | none, none => .oversized

mutual

def Json.node : Json → Node
  | .null => ⟨{}, .null⟩
  | .bool b => ⟨{}, .boolean b⟩
  | .number n => ⟨{}, n.value⟩
  | .string s => ⟨{}, .string s⟩
  | .array items => ⟨{}, .array (Json.nodes items)⟩
  | .object members => ⟨{}, .table (Entry.sort (Json.entries members))⟩

def Json.nodes : List Json → List Node
  | [] => []
  | j :: js => Json.node j :: Json.nodes js

def Json.entries : List (String × Json) → List Entry
  | [] => []
  | (name, j) :: ms => ⟨{ name }, Json.node j⟩ :: Json.entries ms

end

end Mockup
