import Mockup.Proofs.Toml.Distinct

/-! Looking into tables under construction: what is seen at a path, before and after each operation,
and what of it is left in the finished document. -/

namespace Mockup.Toml

/-- What stands at a place of a table under construction. -/
inductive Sight where
  | table
  | value (n : Node)
  | tables

/-- What stands at a path below a branch. Neither finished values nor arrays of tables are looked
into. -/
def Branch.sight : Branch → List String → Option Sight
  | .table _, [] => some .table
  | .value n, [] => some (.value n)
  | .tables .., [] => some .tables
  | .table t, name :: path => (t.find? name).bind fun b => b.sight path
  | _, _ :: _ => none

namespace Table

variable {t t' : Table} {b : Branch} {k : Key} {name : String} {path : List Key} {q : List String}
  {x : Sight} {dotted : Bool} {f : Table → Option Table}

def sight (t : Table) (q : List String) : Option Sight := (Branch.table t).sight q

theorem sight_nil (t : Table) : t.sight [] = some .table := rfl

theorem sight_cons (t : Table) (name : String) (q : List String) :
    t.sight (name :: q) = (t.find? name).bind fun b => b.sight q := rfl

/-! ### Operations -/

theorem sight_empty (o : Origin) (e : Extent) (q : List String) (x : Sight) :
    sight ⟨o, e, []⟩ q = some x ↔ q = [] ∧ x = .table := by
  cases q with
  | nil => simp [sight_nil, eq_comm]
  | cons name q => simp [sight_cons, find?]

/-- A new branch is seen under its name, and everything else as before. -/
theorem sight_add (h : t.find? k.name = none) (b : Branch) (q : List String) (x : Sight) :
    (t.add k b).sight q = some x ↔
      t.sight q = some x ∨ ∃ r, q = k.name :: r ∧ b.sight r = some x := by
  cases q with
  | nil => simp [sight_nil]
  | cons name q =>
    rw [sight_cons, sight_cons, find?_add h]
    split_ifs with hname
    · simp [hname, h]
    · simp [hname]

/-- A table that has grown is seen under its name, and everything else as before. -/
theorem sight_replace {c c' : Table} (h : t.find? name = some (.table c))
    (hc : ∀ q x, c.sight q = some x → c'.sight q = some x) (q : List String) (x : Sight) :
    (t.replace name (.table c')).sight q = some x ↔
      t.sight q = some x ∨ ∃ r, q = name :: r ∧ c'.sight r = some x := by
  cases q with
  | nil => simp [sight_nil]
  | cons m q =>
    rw [sight_cons, sight_cons, find?_replace]
    split_ifs with hname
    · subst hname
      rw [h]
      exact ⟨fun hx => .inr ⟨q, rfl, hx⟩, fun
        | .inl hx => hc q x hx
        | .inr ⟨_, rfl, hx⟩ => hx⟩
    · simp [hname]

/-- A table that takes over another one looks like it. -/
theorem sight_retake {c : Table} (hfind : t.find? k.name = some (.table c)) (o : Origin)
    (e : Extent) (q : List String) :
    ((t.remove k.name).add k (.table ⟨o, e, c.entries⟩)).sight q = t.sight q := by
  cases q with
  | nil => rfl
  | cons name q =>
    have hnone : (t.remove k.name).find? k.name = none := by rw [find?_remove, if_pos rfl]
    rw [sight_cons, sight_cons, find?_add hnone, find?_remove]
    split_ifs with hname
    · rw [hname, hfind]
      cases q <;> rfl
    · rfl

/-- An array of tables is not looked into, so no change in it is seen. -/
theorem sight_replace_tables {e e' : Extent} {ts ts' : List Table}
    (h : t.find? name = some (.tables e ts)) (q : List String) :
    (t.replace name (.tables e' ts')).sight q = t.sight q := by
  cases q with
  | nil => rfl
  | cons m q =>
    rw [sight_cons, sight_cons, find?_replace]
    split_ifs with hname
    · rw [hname, h]
      cases q <;> rfl
    · rfl

/-- The first name on the path of a change. `c` is the table under it, or an empty one, and `c'` is
what becomes of it. -/
theorem exists_sight_cons {k : Key} (ht : ∀ q, t.sight q ≠ some .tables)
    (h : t.update dotted (k :: path) f = some t')
    (hmono : ∀ c c' : Table, (∀ q, c.sight q ≠ some .tables) → c.update dotted path f = some c' →
      ∀ q x, c.sight q = some x → c'.sight q = some x) :
    ∃ c c' : Table, c.update dotted path f = some c' ∧ (∀ q, c.sight q ≠ some .tables) ∧
      (∀ r x, c.sight r = some x → t.sight (k.name :: r) = some x ∨ r = [] ∧ x = .table) ∧
      ∀ q x, t'.sight q = some x ↔
        t.sight q = some x ∨ ∃ r, q = k.name :: r ∧ c'.sight r = some x := by
  obtain ⟨o, c', hfind, hc, rfl⟩ | ⟨c, c', hfind, hc, rfl⟩ | ⟨e, ts, -, -, hfind, -⟩ :=
    update_cons_cases h
  · refine ⟨_, c', hc, fun q hq => ?_, fun r x hx => .inr ((sight_empty _ _ r x).1 hx),
      sight_add hfind _⟩
    cases ((sight_empty _ _ _ _).1 hq).2
  · have hsight (r : List String) : t.sight (k.name :: r) = c.sight r := by
      rw [sight_cons, hfind]
      rfl
    have hplain (q : List String) : c.sight q ≠ some .tables := hsight q ▸ ht (k.name :: q)
    exact ⟨c, c', hc, hplain, fun r x hx => .inl ((hsight r).trans hx),
      sight_replace hfind (hmono c c' hplain hc)⟩
  · refine absurd ?_ (ht [k.name])
    rw [sight_cons, hfind]
    rfl

/-- What a change adds at a path is seen behind the path, and along the path there are tables. -/
theorem sight_update {added : List String → Sight → Prop}
    (hf : ∀ c c', (∀ q, c.sight q ≠ some .tables) → f c = some c' →
      ∀ q x, c'.sight q = some x ↔ c.sight q = some x ∨ added q x)
    (ht : ∀ q, t.sight q ≠ some .tables) (h : t.update dotted path f = some t') (q : List String)
    (x : Sight) :
    t'.sight q = some x ↔ t.sight q = some x ∨
      (q <+: path.map Key.name ∧ x = .table) ∨ ∃ r, q = path.map Key.name ++ r ∧ added r x := by
  induction path generalizing t t' q x with
  | nil =>
    rw [hf t t' ht h q x, List.map_nil, List.prefix_nil]
    constructor
    · rintro (hx | hx)
      · exact .inl hx
      · exact .inr (.inr ⟨q, rfl, hx⟩)
    · rintro (hx | ⟨rfl, rfl⟩ | ⟨r, rfl, hx⟩)
      · exact .inl hx
      · exact .inl t.sight_nil
      · exact .inr hx
  | cons k path ih =>
    obtain ⟨c, c', hc, hplain, hold, hnew⟩ := exists_sight_cons ht h
      fun c c' hplain hc q x hx => (ih hplain hc q x).2 (.inl hx)
    rw [hnew]
    constructor
    · rintro (hx | ⟨r, rfl, hx⟩)
      · exact .inl hx
      · obtain hx | ⟨hr, rfl⟩ | ⟨r', rfl, hadded⟩ := (ih hplain hc r x).1 hx
        · obtain hx | ⟨rfl, rfl⟩ := hold r x hx
          · exact .inl hx
          · exact .inr (.inl ⟨by simp, rfl⟩)
        · exact .inr (.inl ⟨List.cons_prefix_cons.2 ⟨rfl, hr⟩, rfl⟩)
        · exact .inr (.inr ⟨r', rfl, hadded⟩)
    · rintro (hx | ⟨hq, rfl⟩ | ⟨r, rfl, hx⟩)
      · exact .inl hx
      · cases q with
        | nil => exact .inl t.sight_nil
        | cons name q =>
          obtain ⟨rfl, hrest⟩ := List.cons_prefix_cons.1 hq
          exact .inr ⟨q, rfl, (ih hplain hc q _).2 (.inr (.inl ⟨hrest, rfl⟩))⟩
      · exact .inr ⟨_, rfl, (ih hplain hc _ x).2 (.inr (.inr ⟨r, rfl, hx⟩))⟩

/-! ### Arrays of tables -/

/-- An array of tables stays where it is. -/
theorem tables_update
    (hf : ∀ c c' q, f c = some c' → c.sight q = some .tables → c'.sight q = some .tables)
    (h : t.update dotted path f = some t') (hq : t.sight q = some .tables) :
    t'.sight q = some .tables := by
  induction path generalizing t t' q with
  | nil => exact hf t t' q h hq
  | cons k path ih =>
    obtain ⟨o, c', hfind, hc, rfl⟩ | ⟨c, c', hfind, hc, rfl⟩ | ⟨e, ts, -, -, hfind, -, -, rfl⟩ :=
      update_cons_cases h
    · exact (sight_add hfind _ q _).2 (.inl hq)
    · cases q with
      | nil => cases hq
      | cons m q =>
        rw [sight_cons] at hq ⊢
        rw [find?_replace]
        split_ifs with hname
        · rw [hname, hfind] at hq ⊢
          exact ih hc hq
        · exact hq
    · rw [sight_replace_tables hfind]
      exact hq

/-- Where a change makes an array of tables, one is seen in the whole, if only the one that the
change is in. -/
theorem exists_tables_update (hf : ∀ c c', f c = some c' → ∃ q, c'.sight q = some .tables)
    (h : t.update dotted path f = some t') : ∃ q, t'.sight q = some .tables := by
  induction path generalizing t t' with
  | nil => exact hf t t' h
  | cons k path ih =>
    obtain ⟨o, c', hfind, hc, rfl⟩ | ⟨c, c', hfind, hc, rfl⟩ | ⟨e, ts, -, -, hfind, -, -, rfl⟩ :=
      update_cons_cases h
    · obtain ⟨q, hq⟩ := ih hc
      exact ⟨k.name :: q, (sight_add hfind _ _ _).2 (.inr ⟨q, rfl, hq⟩)⟩
    · obtain ⟨q, hq⟩ := ih hc
      refine ⟨k.name :: q, ?_⟩
      rw [sight_cons, find?_replace, if_pos rfl, hfind]
      exact hq
    · refine ⟨[k.name], ?_⟩
      rw [sight_replace_tables hfind, sight_cons, hfind]
      rfl

theorem tables_assign {n : Node} (h : t.assign path k n = some t')
    (hq : t.sight q = some .tables) : t'.sight q = some .tables := by
  obtain ⟨f, hu, hf⟩ := exists_update_of_assign h
  refine tables_update (fun c c' q hc hq => ?_) hu hq
  obtain ⟨hfind, rfl⟩ := hf c c' hc
  exact (sight_add hfind _ q _).2 (.inl hq)

theorem tables_define {header : Extent} (h : t.define path k header = some t')
    (hq : t.sight q = some .tables) : t'.sight q = some .tables := by
  obtain ⟨f, hu, hf⟩ := exists_update_of_define h
  refine tables_update (fun c c' q hc hq => ?_) hu hq
  obtain ⟨hfind, rfl⟩ | ⟨c₁, hfind, rfl⟩ := hf c c' hc
  · exact (sight_add hfind _ q _).2 (.inl hq)
  · rw [sight_retake hfind]
    exact hq

theorem tables_append {header : Extent} (h : t.append path k header = some t')
    (hq : t.sight q = some .tables) : t'.sight q = some .tables := by
  obtain ⟨f, hu, hf⟩ := exists_update_of_append h
  refine tables_update (fun c c' q hc hq => ?_) hu hq
  obtain ⟨hfind, rfl⟩ | ⟨e, ts, hfind, rfl⟩ := hf c c' hc
  · exact (sight_add hfind _ q _).2 (.inl hq)
  · rw [sight_replace_tables hfind]
    exact hq

theorem exists_tables_append {header : Extent} (h : t.append path k header = some t') :
    ∃ q, t'.sight q = some .tables := by
  obtain ⟨f, hu, hf⟩ := exists_update_of_append h
  refine exists_tables_update (fun c c' hc => ⟨[k.name], ?_⟩) hu
  obtain ⟨hfind, rfl⟩ | ⟨e, ts, hfind, rfl⟩ := hf c c' hc
  · exact (sight_add hfind _ _ _).2 (.inr ⟨[], rfl, rfl⟩)
  · rw [sight_replace_tables hfind, sight_cons, hfind]
    rfl

/-! ### Finished tables -/

/-- A finished table holds under a name what the table under construction held there. -/
theorem child?_node (ht : t.Sound) (name : String) :
    t.node.value.child? name = (t.find? name).map Branch.node := by
  have hnames : ((Branch.entries t.entries).map Entry.name).Nodup := by
    rw [Branch.entries_eq_map, List.map_map]
    exact ht.names
  have hperm := Entry.perm_sort hnames
  rw [node, Branch.node_table_value, ← Value.child?_of_perm hnames hperm.symm, Value.child?,
    Value.entries, Branch.entries_eq_map, List.find?_map, find?, Option.map_map, Option.map_map]
  rfl

end Table

/-- The same is seen, up to the order of entries and extents. -/
inductive Sight.Alike : Sight → Sight → Prop where
  | table : Sight.Alike .table .table
  | value {n m : Node} (h : n.value.Alike m.value) : Sight.Alike (.value n) (.value m)

theorem Branch.alike_of_sight {b b' : Branch}
    (h : Option.Rel Sight.Alike (b.sight []) (b'.sight [])) :
    (∃ n m, b = .value n ∧ b' = .value m ∧ n.value.Alike m.value) ∨
      ∃ c c', b = .table c ∧ b' = .table c' := by
  cases b <;> cases b' <;> obtain ⟨_ | h⟩ | _ := h
  · exact .inl ⟨_, _, rfl, rfl, h⟩
  · exact .inr ⟨_, _, rfl, rfl⟩

/-- By induction on the first table: the same names lead on in both, to tables in which again the
same is seen, or to values that say the same. -/
theorem Table.node_alike {t t' : Table} (ht : t.Sound) (ht' : t'.Sound)
    (h : ∀ q, Option.Rel Sight.Alike (t.sight q) (t'.sight q)) :
    t.node.value.Alike t'.node.value := by
  obtain ⟨b, hb, hsound⟩ : ∃ b, b = Branch.table t ∧ b.Sound := ⟨_, rfl, ht⟩
  induction hsound generalizing t t' with
  | value => cases hb
  | tables => cases hb
  | @table t₁ names branches ih =>
    obtain rfl := Branch.table.inj hb
    have hchild (name : String) : Option.Rel (fun n m => n.value.Alike m.value)
        (t₁.node.value.child? name) (t'.node.value.child? name) := by
      rw [child?_node ht, child?_node ht']
      have hq (q : List String) := h (name :: q)
      simp only [sight_cons] at hq
      cases hf : t₁.find? name with
      | none =>
        cases hf' : t'.find? name with
        | none => exact .none
        | some b' =>
          have hnil := hq []
          rw [hf, hf'] at hnil
          cases b' <;> cases hnil
      | some b =>
        cases hf' : t'.find? name with
        | none =>
          have hnil := hq []
          rw [hf, hf'] at hnil
          cases b <;> cases hnil
        | some b' =>
          simp only [hf, hf', Option.bind_some] at hq
          refine .some ?_
          obtain ⟨n, m, rfl, rfl, halike⟩ | ⟨c, c', rfl, rfl⟩ := Branch.alike_of_sight (hq [])
          · exact halike
          · obtain ⟨x, hx, hc⟩ := Option.map_eq_some_iff.1 hf
            exact ih x (List.mem_of_find?_eq_some hx) (ht.find hf) (ht'.find hf') hq hc
    rw [node, node, Branch.node_table_value, Branch.node_table_value] at hchild ⊢
    exact .table hchild

/-- Somewhere in the document there is an array with a table in front. -/
def HasTables (n : Node) : Prop :=
  ∃ q m first rest, n.at? q = some m ∧ m.value = .array (first :: rest) ∧
    first.value.isTable = true

theorem Table.Sound.hasTables {t : Table} {q : List String} (ht : t.Sound)
    (hq : t.sight q = some .tables) : HasTables t.node := by
  suffices h : ∃ m first rest, t.node.at? q = some m ∧ m.value = .array (first :: rest) ∧
      first.value.isTable = true from ⟨q, h⟩
  induction q generalizing t with
  | nil => cases hq
  | cons name q ih =>
    rw [Table.sight_cons] at hq
    obtain ⟨b, hb, hq⟩ := Option.bind_eq_some_iff.1 hq
    rw [Node.at?_cons, Table.child?_node ht, hb, Option.map_some, Option.bind_some]
    cases b with
    | value n => cases q <;> cases hq
    | table c => exact ih (ht.find hb) hq
    | tables e ts =>
      cases q with
      | cons _ _ => cases hq
      | nil =>
        cases ht.find hb with
        | tables hne _ =>
          obtain ⟨first, rest, rfl⟩ := List.exists_cons_of_ne_nil hne
          refine ⟨_, first.node, rest.map Table.node, rfl, ?_, ?_⟩
          · rw [Branch.node, Branch.elements_eq_map, List.map_cons]
          · rw [Table.node, Branch.node_table_value]
            rfl

end Mockup.Toml
