import Mockup.Toml.Scalar
import Mockup.Toml.Table
import Mockup.Toml.Token

/-! Reading TOML. A text is a list of statements, one on a line: a header, or a key and its value.
The statements are carried out one after another on the table of the document. -/

namespace Mockup.Toml

abbrev Tokens := List Token

inductive Statement where
  | assign (path : List Key) (key : Key) (node : Node)
  | define (path : List Key) (key : Key) (header : Extent)
  | append (path : List Key) (key : Key) (header : Extent)

/-! ### Pieces -/

/-- Skips blanks and comments. -/
def skipBlank (ts : Tokens) : Tokens :=
  ts.dropWhile fun t => match t.lexeme with
    | .blank _ => true
    | _ => false

/-- Skips blanks, comments and line ends. -/
def skipLines (ts : Tokens) : Tokens :=
  ts.dropWhile fun t => match t.lexeme with
    | .blank _ | .lineEnd => true
    | _ => false

def mark? (c : Char) : Tokens → Option (Extent × Tokens)
  | ⟨.mark d, e⟩ :: ts => if c = d then some (e, ts) else none
  | _ => none

def isBareKeyChar (c : Char) : Bool := c.isAlphanum || c = '_' || c = '-'

def simpleKey? : Tokens → Option (Key × Tokens)
  | ⟨.word cs, e⟩ :: ts => if cs.all isBareKeyChar then some (⟨String.ofList cs, e⟩, ts) else none
  | ⟨.text s false, e⟩ :: ts => some (⟨String.ofList s, e⟩, ts)
  | _ => none

/-- The parts of a key between dots. `fuel` counts the tokens. -/
def key? : (fuel : Nat) → Tokens → Option (List Key × Key × Tokens)
  | 0, _ => none
  | fuel + 1, ts => do
    let (k, ts) ← simpleKey? (skipBlank ts)
    let ts := skipBlank ts
    match mark? '.' ts with
    | some (_, ts) => do
      let (path, key, ts) ← key? fuel ts
      return (k :: path, key, ts)
    | none => return ([], k, ts)

/-- The words and dots that stand together. -/
def bareText : Tokens → List Char
  | ⟨.word cs, _⟩ :: ts => cs ++ bareText ts
  | ⟨.mark '.', _⟩ :: ts => '.' :: bareText ts
  | _ => []

def afterBare : Tokens → Tokens
  | ⟨.word _, _⟩ :: ts => afterBare ts
  | ⟨.mark '.', _⟩ :: ts => afterBare ts
  | ts => ts

/-- A bare value. A time may stand one space behind a date. -/
def bare? (ts : Tokens) : Option (Value × Tokens) :=
  let text := bareText ts
  let rest := afterBare ts
  match isDate text, rest with
  | true, ⟨.blank [' '], _⟩ :: more =>
    if (bareText more).isEmpty then some (.date, rest)
    else (value? (text ++ ' ' :: bareText more)).map (·, afterBare more)
  | _, _ => (value? text).map (·, rest)

/-- The piece from the first token of `ts` to the last one before `rest`. -/
def extentOf (ts rest : Tokens) : Extent :=
  let covered := ts.take (ts.length - rest.length)
  match covered.head?, covered.getLast? with
  | some a, some b => ⟨a.extent.start, b.extent.stop⟩
  | _, _ => {}

/-! ### Values -/

def maxDepth : Nat := 80

mutual

/-- A value, and what follows it. Each step takes a token or goes to a part of the value, so `fuel`
of three times the tokens is never short. -/
def node? : (fuel depth : Nat) → Tokens → Option (Node × Tokens)
  | 0, _, _ => none
  | fuel + 1, depth, ts =>
    match ts with
    | ⟨.text s _, e⟩ :: rest => some (⟨e, .string (String.ofList s)⟩, rest)
    | ⟨.word _, _⟩ :: _ => (bare? ts).map fun (v, rest) => (⟨extentOf ts rest, v⟩, rest)
    | ⟨.mark c, _⟩ :: inside =>
      if maxDepth ≤ depth then none
      else if c = '[' then
        (items? fuel (depth + 1) inside).map fun (ns, rest) => (⟨extentOf ts rest, .array ns⟩, rest)
      else if c = '\x7b' then
        (entries? fuel (depth + 1) ⟨.passage, {}, []⟩ inside).map fun (t, rest) =>
          (⟨extentOf ts rest, t.node.value⟩, rest)
      else none
    | _ => none

/-- The items of an array and its closing bracket. The last item may be followed by a comma. -/
def items? : (fuel depth : Nat) → Tokens → Option (List Node × Tokens)
  | 0, _, _ => none
  | fuel + 1, depth, ts =>
    let ts := skipLines ts
    match mark? ']' ts with
    | some (_, rest) => some ([], rest)
    | none => do
      let (n, ts) ← node? fuel depth ts
      let ts := skipLines ts
      match mark? ',' ts with
      | some (_, ts) => do
        let (ns, rest) ← items? fuel depth ts
        return (n :: ns, rest)
      | none => do
        let (_, rest) ← mark? ']' ts
        return ([n], rest)

/-- The entries of an inline table and its closing brace, added to those already read. -/
def entries? : (fuel depth : Nat) → Table → Tokens → Option (Table × Tokens)
  | 0, _, _, _ => none
  | fuel + 1, depth, t, ts =>
    let ts := skipLines ts
    match mark? '\x7d' ts with
    | some (_, rest) => some (t, rest)
    | none => do
      let (path, key, ts) ← key? ts.length ts
      let (_, ts) ← mark? '=' ts
      let (n, ts) ← node? fuel depth (skipBlank ts)
      let t ← t.assign path key n
      let ts := skipLines ts
      match mark? ',' ts with
      | some (_, ts) => entries? fuel depth t ts
      | none => do
        let (_, rest) ← mark? '\x7d' ts
        return (t, rest)

end

/-! ### Statements -/

/-- The path and the key of a header with one or two brackets, and the piece that it covers. -/
def header? : Tokens → Option (Statement × Tokens)
  | ⟨.mark '[', a⟩ :: ⟨.mark '[', _⟩ :: ts => do
    let (path, key, ts) ← key? ts.length ts
    let (first, ts) ← mark? ']' ts
    let (last, ts) ← mark? ']' ts
    if first.stop = last.start then return (.append path key ⟨a.start, last.stop⟩, ts) else none
  | ⟨.mark '[', a⟩ :: ts => do
    let (path, key, ts) ← key? ts.length ts
    let (b, ts) ← mark? ']' ts
    return (.define path key ⟨a.start, b.stop⟩, ts)
  | _ => none

def statement? (ts : Tokens) : Option (Statement × Tokens) :=
  match header? ts, mark? '[' ts with
  | some r, _ => some r
  | none, some _ => none
  | none, none => do
    let (path, key, ts) ← key? ts.length ts
    let (_, ts) ← mark? '=' ts
    let (n, ts) ← node? (3 * ts.length) 0 (skipBlank ts)
    return (.assign path key n, ts)

/-- The statements of a text. After each the line ends. -/
def statementsWithin : (fuel : Nat) → Tokens → Option (List Statement)
  | fuel, ts =>
    match skipLines ts, fuel with
    | [], _ => some []
    | _, 0 => none
    | ts, fuel + 1 => do
      let (s, ts) ← statement? ts
      match skipBlank ts with
      | [] => return [s]
      | ⟨.lineEnd, _⟩ :: ts => do return s :: (← statementsWithin fuel ts)
      | _ => none

/-- The table of the document, and where the header that was read last leads. -/
structure Draft where
  root : Table := ⟨.header, {}, []⟩
  current : List Key := []

def Statement.apply? (d : Draft) : Statement → Option Draft
  | assign path key n => do
    return { d with root := ← d.root.update false d.current (·.assign path key n) }
  | define path key header => do
    return ⟨← d.root.define path key header, path ++ [key]⟩
  | append path key header => do
    return ⟨← d.root.append path key header, path ++ [key]⟩

/-- The document that a text holds, if it is TOML. -/
def read? (s : List Char) : Option Node := do
  let ts ← tokens? s
  let statements ← statementsWithin ts.length ts
  let draft ← statements.foldlM Statement.apply? {}
  return draft.root.node

end Mockup.Toml
