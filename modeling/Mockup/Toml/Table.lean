import Mockup.Document

/-! Tables under construction. A header defines a table once; a table that only stands on the way to
another one may still get a header of its own; dotted keys extend tables that dotted keys made. -/

namespace Mockup.Toml

/-- What made a table: its own header, the header of a table below it, or dotted keys. -/
inductive Origin where
  | header | passage | dotted
  deriving DecidableEq, Repr

mutual

/-- A finished value, a table, or an array of tables that headers extend. -/
inductive Branch where
  | value (node : Node)
  | table (t : Table)
  | tables (extent : Extent) (elements : List Table)

structure Table where
  origin : Origin
  extent : Extent
  entries : List (Key × Branch)

end

namespace Table

def find? (t : Table) (name : String) : Option Branch :=
  (t.entries.find? (·.1.name == name)).map (·.2)

def add (t : Table) (k : Key) (b : Branch) : Table := { t with entries := t.entries ++ [(k, b)] }

/-- Puts a branch in the place of the one of that name, whose key stays. -/
def replace (t : Table) (name : String) (b : Branch) : Table :=
  { t with entries := t.entries.map fun (k, old) => (k, if k.name = name then b else old) }

def remove (t : Table) (name : String) : Table :=
  { t with entries := t.entries.filter (·.1.name != name) }

/-- Changes the table at a path and makes the tables that are missing on the way. Of an array of
tables the last is meant. Dotted keys do not lead through a table that has a header. -/
def update (dotted : Bool) : List Key → (Table → Option Table) → Table → Option Table
  | [], f, t => f t
  | k :: ks, f, t =>
    match t.find? k.name with
    | none => do
      let child ← update dotted ks f ⟨if dotted then .dotted else .passage, k.extent, []⟩
      return t.add k (.table child)
    | some (.table c) =>
      if dotted && c.origin = .header then none
      else do return t.replace k.name (.table (← update dotted ks f c))
    | some (.tables extent elements) => do
      let last ← elements.getLast?
      let last ← update dotted ks f last
      return t.replace k.name (.tables extent (elements.dropLast ++ [last]))
    | some (.value _) => none

/-- Adds a value under a dotted key: the tables on the way, and the last part of the key. -/
def assign (path : List Key) (key : Key) (n : Node) (t : Table) : Option Table :=
  t.update true path fun t =>
    if (t.origin == .dotted) == path.isEmpty then none
    else if (t.find? key.name).isSome then none
    else some (t.add key (.value n))

/-- The table of a header. It takes over a table that was only passed. -/
def define (path : List Key) (key : Key) (header : Extent) (t : Table) : Option Table :=
  t.update false path fun t =>
    match t.find? key.name with
    | none => some (t.add key (.table ⟨.header, header, []⟩))
    | some (.table c) =>
      if c.origin = .passage then
        some ((t.remove key.name).add key (.table ⟨.header, header, c.entries⟩))
      else none
    | some _ => none

/-- One more table in the array of a header. -/
def append (path : List Key) (key : Key) (header : Extent) (t : Table) : Option Table :=
  let element : Table := ⟨.header, header, []⟩
  t.update false path fun t =>
    match t.find? key.name with
    | none => some (t.add key (.tables header [element]))
    | some (.tables extent elements) =>
      some (t.replace key.name (.tables extent (elements ++ [element])))
    | some _ => none

end Table

/-! ### Finished tables -/

mutual

def Branch.node : Branch → Node
  | .value n => n
  | .table ⟨_, extent, entries⟩ => ⟨extent, .table (Entry.sort (Branch.entries entries))⟩
  | .tables extent elements => ⟨extent, .array (Branch.elements elements)⟩

def Branch.entries : List (Key × Branch) → List Entry
  | [] => []
  | (k, b) :: bs => ⟨k, Branch.node b⟩ :: Branch.entries bs

def Branch.elements : List Table → List Node
  | [] => []
  | ⟨_, extent, entries⟩ :: ts =>
    ⟨extent, .table (Entry.sort (Branch.entries entries))⟩ :: Branch.elements ts

end

def Table.node (t : Table) : Node := (Branch.table t).node

end Mockup.Toml
