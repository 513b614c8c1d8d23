import Mathlib.Data.List.Nodup
import Mathlib.Data.Option.Basic
import Mockup.Document

/-! Places in a document, and when two documents say the same. A table is looked into by name, so
the order of its entries does not count as long as no name comes twice. -/

namespace Mockup

/-! ### Names -/

namespace Entry

theorem mem_of_mem_sort {e : Entry} {es : List Entry} (h : e ∈ sort es) : e ∈ es := by
  have hfold (es kept : List Entry)
      (h : e ∈ es.foldl (fun kept e => e :: kept.filter (·.name != e.name)) kept) :
      e ∈ es ∨ e ∈ kept := by
    induction es generalizing kept with
    | nil => exact .inr h
    | cons x es ih =>
      obtain h | h := ih _ h
      · exact .inl (List.mem_cons_of_mem x h)
      · obtain rfl | h := List.mem_cons.1 h
        · exact .inl List.mem_cons_self
        · exact .inr (List.mem_of_mem_filter h)
  exact (hfold es [] (List.mem_mergeSort.1 h)).resolve_right List.not_mem_nil

theorem nodup_sort (es : List Entry) : ((sort es).map name).Nodup := by
  have hfold (es kept : List Entry) (h : (kept.map name).Nodup) :
      ((es.foldl (fun kept e => e :: kept.filter (·.name != e.name)) kept).map name).Nodup := by
    induction es generalizing kept with
    | nil => exact h
    | cons x es ih =>
      refine ih _ (List.nodup_cons.2 ⟨fun hx => ?_, ?_⟩)
      · obtain ⟨e, he, hname⟩ := List.mem_map.1 hx
        simpa [hname] using (List.mem_filter.1 he).2
      · exact h.sublist (List.filter_sublist.map name)
  exact ((List.mergeSort_perm _ _).map name).nodup_iff.2 (hfold es [] List.nodup_nil)

/-- Entries of different names are only put in order. -/
theorem perm_sort {es : List Entry} (h : (es.map name).Nodup) : (sort es).Perm es := by
  have hfold (es kept : List Entry) (h : ((es ++ kept).map name).Nodup) :
      es.foldl (fun kept e => e :: kept.filter (·.name != e.name)) kept = es.reverse ++ kept := by
    induction es generalizing kept with
    | nil => rfl
    | cons x es ih =>
      have hfilter : kept.filter (·.name != x.name) = kept := by
        refine List.filter_eq_self.2 fun e he => bne_iff_ne.2 fun heq => ?_
        rw [List.cons_append, List.map_cons, List.nodup_cons] at h
        exact h.1 (heq ▸ List.mem_map_of_mem (List.mem_append_right es he))
      rw [List.foldl_cons, hfilter, ih (x :: kept), List.reverse_cons, List.append_assoc]
      · rfl
      · exact ((List.perm_middle.map name).nodup_iff).2 h
  refine (List.mergeSort_perm _ _).trans ?_
  rw [hfold es [] (by rwa [List.append_nil]), List.append_nil]
  exact List.reverse_perm es

end Entry

/-! ### Places -/

namespace Value

/-- The entries of a table. No other value has any. -/
def entries : Value → List Entry
  | table es => es
  | _ => []

/-- The items of an array. No other value has any. -/
def items : Value → List Node
  | array ns => ns
  | _ => []

def isTable : Value → Bool
  | table _ => true
  | _ => false

def isString : Value → Bool
  | string _ => true
  | _ => false

theorem eq_table {v : Value} (h : v.isTable = true) : v = .table v.entries := by
  cases v <;> first | rfl | cases h

theorem isTable_of_mem {v : Value} {e : Entry} (h : e ∈ v.entries) : v.isTable = true := by
  cases v <;> first | rfl | cases h

theorem exists_of_isString {v : Value} (h : v.isString = true) : ∃ s, v = .string s := by
  cases v <;> first | exact ⟨_, rfl⟩ | cases h

/-- What a table holds under a name. -/
def child? (v : Value) (name : String) : Option Node :=
  (v.entries.find? (·.name == name)).map (·.node)

variable {v : Value} {name : String} {n : Node} {e : Entry}

theorem child?_cons_of_eq {es : List Entry} (h : e.name = name) :
    (Value.table (e :: es)).child? name = some e.node := by
  simp [child?, entries, h]

theorem child?_cons_of_ne {es : List Entry} (h : e.name ≠ name) :
    (Value.table (e :: es)).child? name = (Value.table es).child? name := by
  simp [child?, entries, h]

theorem child?_eq_none_iff : v.child? name = none ↔ ∀ e ∈ v.entries, e.name ≠ name := by
  simp [child?]

theorem exists_of_child? (h : v.child? name = some n) :
    ∃ e ∈ v.entries, e.name = name ∧ e.node = n := by
  obtain ⟨e, he, hn⟩ := Option.map_eq_some_iff.1 h
  exact ⟨e, List.mem_of_find?_eq_some he, by simpa using List.find?_some he, hn⟩

theorem child?_isSome_of_mem (h : e ∈ v.entries) : (v.child? e.name).isSome := by
  rw [Option.isSome_iff_ne_none, Ne, child?_eq_none_iff]
  exact fun hnone => hnone e h rfl

theorem child?_of_mem (hnames : (v.entries.map Entry.name).Nodup) (h : e ∈ v.entries) :
    v.child? e.name = some e.node := by
  obtain ⟨n, hn⟩ := Option.isSome_iff_exists.1 (child?_isSome_of_mem h)
  obtain ⟨e', he', hname, rfl⟩ := exists_of_child? hn
  rw [hn, List.inj_on_of_nodup_map hnames he' h hname]

/-- In a table without a name that comes twice the order of the entries does not count. -/
theorem child?_of_perm {es fs : List Entry} (hnames : (es.map Entry.name).Nodup)
    (h : es.Perm fs) (name : String) :
    (Value.table es).child? name = (Value.table fs).child? name := by
  cases hc : (Value.table es).child? name with
  | none =>
    exact (child?_eq_none_iff (v := .table fs).2 fun e he =>
      child?_eq_none_iff.1 hc e (h.mem_iff.2 he)).symm
  | some n =>
    obtain ⟨e, he, rfl, rfl⟩ := exists_of_child? hc
    have hfs : (fs.map Entry.name).Nodup := (h.map Entry.name).nodup_iff.1 hnames
    exact (child?_of_mem (v := .table fs) hfs (h.mem_iff.1 he)).symm

end Value

namespace Node

/-- What stands at a path of names below a node. -/
def at? (n : Node) (path : List String) : Option Node :=
  path.foldlM (fun m name => m.value.child? name) n

variable {n : Node} {path : List String}

@[simp] theorem at?_nil (n : Node) : n.at? [] = some n := rfl

theorem at?_cons (n : Node) (name : String) (path : List String) :
    n.at? (name :: path) = (n.value.child? name).bind fun m => m.at? path := rfl

theorem at?_concat (n : Node) (path : List String) (name : String) :
    n.at? (path ++ [name]) = (n.at? path).bind (·.value.child? name) := by
  simp only [at?, List.foldlM_append, List.foldlM_cons, List.foldlM_nil, bind_pure]
  rfl

/-- The child of a name in a table, and in an array the first item. -/
def first? (n : Node) (name : String) : Option Node :=
  (n.value.child? name).or n.value.items.head?

end Node

/-! ### Distinct names -/

/-- No table has a name twice, neither here nor below. -/
inductive Value.Distinct : Value → Prop where
  | intro {v : Value} (names : (v.entries.map Entry.name).Nodup)
      (entries : ∀ e ∈ v.entries, e.node.value.Distinct) (items : ∀ n ∈ v.items, n.value.Distinct) :
      v.Distinct

namespace Value.Distinct

variable {v : Value} {n m : Node} {path : List String}

theorem names (h : v.Distinct) : (v.entries.map Entry.name).Nodup := by
  obtain ⟨h, -, -⟩ := h
  exact h

/-- A value without parts. -/
theorem of_plain (hentries : v.entries = []) (hitems : v.items = []) : v.Distinct :=
  .intro (by simp [hentries]) (by simp [hentries]) (by simp [hitems])

theorem child {name : String} (h : v.Distinct) (hn : v.child? name = some n) :
    n.value.Distinct := by
  obtain ⟨-, h, -⟩ := h
  obtain ⟨e, he, -, rfl⟩ := Value.exists_of_child? hn
  exact h e he

theorem of_at? (h : n.value.Distinct) (hm : n.at? path = some m) : m.value.Distinct := by
  induction path generalizing n with
  | nil =>
    cases hm
    exact h
  | cons name path ih =>
    obtain ⟨k, hk, hm⟩ := Option.bind_eq_some_iff.1 hm
    exact ih (h.child hk) hm

end Value.Distinct

/-! ### Alike documents -/

/-- Two values say the same: equal texts, numbers and so on, equally long arrays of such values, and
tables that hold such values under the same names, in whatever order. Extents do not count. -/
inductive Value.Alike : Value → Value → Prop where
  | refl (v : Value) : v.Alike v
  | array {ns ms : List Node} (h : List.Forall₂ (fun n m => n.value.Alike m.value) ns ms) :
      (Value.array ns).Alike (.array ms)
  | table {es fs : List Entry}
      (h : ∀ name, Option.Rel (fun n m => n.value.Alike m.value) ((Value.table es).child? name)
        ((Value.table fs).child? name)) :
      (Value.table es).Alike (.table fs)

namespace Value.Alike

variable {v w : Value} {n m : Node}

theorem child? (h : v.Alike w) (name : String) :
    Option.Rel (fun n m => n.value.Alike m.value) (v.child? name) (w.child? name) := by
  cases h with
  | refl =>
    cases v.child? name with
    | none => exact .none
    | some n => exact .some (.refl n.value)
  | array h => exact .none
  | table h => exact h name

theorem at? (h : n.value.Alike m.value) (path : List String) :
    Option.Rel (fun n m => n.value.Alike m.value) (n.at? path) (m.at? path) := by
  induction path generalizing n m with
  | nil => exact .some h
  | cons name path ih =>
    have hchild := h.child? name
    simp only [Node.at?, List.foldlM_cons]
    cases hn : n.value.child? name <;> cases hm : m.value.child? name <;> rw [hn, hm] at hchild <;>
      cases hchild
    · exact .none
    · rename_i h
      exact ih h

theorem isSome_at? (h : n.value.Alike m.value) (path : List String) :
    (n.at? path).isSome = (m.at? path).isSome := by
  have hrel := h.at? path
  cases hn : n.at? path <;> cases hm : m.at? path <;> rw [hn, hm] at hrel <;>
    first | rfl | cases hrel

theorem exists_left {path : List String} {m' : Node} (h : n.value.Alike m.value)
    (hm : m.at? path = some m') : ∃ n', n.at? path = some n' ∧ n'.value.Alike m'.value := by
  have hrel := h.at? path
  cases hn : n.at? path <;> rw [hn, hm] at hrel <;> cases hrel
  rename_i n' halike
  exact ⟨n', rfl, halike⟩

theorem exists_right {path : List String} {n' : Node} (h : n.value.Alike m.value)
    (hn : n.at? path = some n') : ∃ m', m.at? path = some m' ∧ n'.value.Alike m'.value := by
  have hrel := h.at? path
  cases hm : m.at? path <;> rw [hn, hm] at hrel <;> cases hrel
  rename_i m' halike
  exact ⟨m', rfl, halike⟩

theorem isTable_eq (h : v.Alike w) : v.isTable = w.isTable := by cases h <;> rfl

theorem isString_eq (h : v.Alike w) : v.isString = w.isString := by cases h <;> rfl

end Value.Alike

end Mockup
