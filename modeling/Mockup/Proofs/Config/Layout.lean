import Mathlib.Data.List.Pairwise
import Mockup.Config.Decoder
import Mockup.Proofs.Document
import Mockup.Proofs.Except

/-! Records as a whole. Where the fields of a record keep separate parts of it, a table overrides
the defaults part by part: decoding succeeds if every value fits its own part, and each part then
comes from its own value alone. -/

namespace Mockup.Config

variable {σ α : Type} {d : Dialect}

/-- The decoder takes the value, if there is one. -/
def Accepts (decode : Decoder α) (d : Dialect) (o : Option Node) : Prop :=
  ∀ n ∈ o, ∃ x, decode d n = .ok x

/-- The decoded value if there is one, and the default otherwise. -/
def Gives (decode : Decoder α) (d : Dialect) (o : Option Node) (default x : α) : Prop :=
  match o with
  | some n => decode d n = .ok x
  | none => x = default

/-! ### Columns -/

/-- A part of a record, and the field that it is kept by. What was written there is read there. -/
structure Column (σ : Type) where
  {α : Type}
  name : String
  decode : Decoder α
  get : σ → α
  put : σ → α → σ
  get_put : ∀ {d n x} s, decode d n = .ok x → get (put s x) = x
  required : Bool := false

namespace Column

def field (c : Column σ) : Field σ :=
  { Field.of c.name c.decode c.put with required := c.required }

@[simp] theorem field_name (c : Column σ) : c.field.name = c.name := rfl

@[simp] theorem field_required (c : Column σ) : c.field.required = c.required := rfl

/-- The columns have two names, and to write one leaves the other as it is. -/
def Apart (a b : Column σ) : Prop :=
  a.name ≠ b.name ∧ (∀ s x, a.get (b.put s x) = a.get s) ∧ ∀ s x, b.get (a.put s x) = b.get s

instance : Std.Symm (Column.Apart (σ := σ)) := ⟨fun _ _ h => ⟨h.1.symm, h.2.2, h.2.1⟩⟩

end Column

/-! ### Layouts -/

/-- The columns of a record, in the order of its fields. -/
structure Layout (r : Record σ) where
  columns : List (Column σ)
  fields_eq : r.fields = columns.map Column.field
  apart : columns.Pairwise Column.Apart

namespace Layout

variable {r : Record σ} (L : Layout r) {s s' : σ} {e : Entry} {es : List Entry} {n : Node}

theorem names_eq : r.names = L.columns.map (·.name) := by
  rw [Record.names, L.fields_eq, List.map_map]
  rfl

theorem mem_names_iff {name : String} : name ∈ r.names ↔ ∃ c ∈ L.columns, c.name = name := by
  rw [L.names_eq, List.mem_map]

theorem eq_of_name {a b : Column σ} (ha : a ∈ L.columns) (hb : b ∈ L.columns)
    (h : a.name = b.name) : a = b := by
  by_contra hne
  exact (L.apart.forall ha hb hne).1 h

/-! #### One entry -/

/-- An entry writes the column that it names. -/
theorem exists_of_override (h : r.override d s e = .ok s') :
    ∃ c ∈ L.columns, c.name = e.name ∧ ∃ x, c.decode d e.node = .ok x ∧ s' = c.put s x := by
  unfold Record.override at h
  split at h
  · rename_i f hf
    have hmem := List.mem_of_find?_eq_some hf
    rw [L.fields_eq, List.mem_map] at hmem
    obtain ⟨c, hc, rfl⟩ := hmem
    obtain ⟨x, hx, rfl⟩ := Except.map_eq_ok_iff.1 h
    exact ⟨c, hc, by simpa using List.find?_some hf, x, hx, rfl⟩
  · cases h

theorem override_of_mem {c : Column σ} (hc : c ∈ L.columns) (h : c.name = e.name) (s : σ) :
    r.override d s e = (c.decode d e.node).map (c.put s) := by
  unfold Record.override
  split
  · rename_i f hf
    have hmem := List.mem_of_find?_eq_some hf
    rw [L.fields_eq, List.mem_map] at hmem
    obtain ⟨c', hc', rfl⟩ := hmem
    have hname : c'.name = e.name := by simpa using List.find?_some hf
    rw [L.eq_of_name hc hc' (h.trans hname.symm)]
    rfl
  · rename_i hnone
    rw [List.find?_eq_none, L.fields_eq] at hnone
    exact absurd (beq_iff_eq.2 h) (hnone c.field (List.mem_map_of_mem hc))

theorem decode_of_override {c : Column σ} (hc : c ∈ L.columns) (h : e.name = c.name)
    (ho : r.override d s e = .ok s') : c.decode d e.node = .ok (c.get s') := by
  rw [L.override_of_mem hc h.symm] at ho
  obtain ⟨x, hx, rfl⟩ := Except.map_eq_ok_iff.1 ho
  rw [c.get_put s hx, hx]

/-- An entry leaves all other columns as they are. -/
theorem get_of_override {c : Column σ} (hc : c ∈ L.columns) (h : e.name ≠ c.name)
    (ho : r.override d s e = .ok s') : c.get s' = c.get s := by
  obtain ⟨c', hc', hname, x, -, rfl⟩ := L.exists_of_override ho
  have hne : c ≠ c' := fun heq => h (by rw [heq, hname])
  exact (L.apart.forall hc hc' hne).2.1 s x

/-! #### The entries of a table -/

/-- By induction on the entries: the first one gives the column its value and no later one has its
name, or it has another name and does not count. -/
theorem gives_of_foldlM {c : Column σ} (hc : c ∈ L.columns) (hnames : (es.map Entry.name).Nodup)
    (h : es.foldlM (r.override d) s = .ok s') :
    Gives c.decode d ((Value.table es).child? c.name) (c.get s) (c.get s') := by
  induction es generalizing s with
  | nil =>
    cases h
    rfl
  | cons e es ih =>
    rw [List.foldlM_cons] at h
    obtain ⟨t, ht, h⟩ := Except.bind_eq_ok_iff.1 h
    rw [List.map_cons, List.nodup_cons] at hnames
    have hrest := ih hnames.2 h
    by_cases hname : e.name = c.name
    · have hnone : (Value.table es).child? c.name = none :=
        Value.child?_eq_none_iff.2 fun x hx heq =>
          hnames.1 (List.mem_map.2 ⟨x, hx, heq.trans hname.symm⟩)
      rw [hnone] at hrest
      rw [Value.child?_cons_of_eq hname, hrest]
      exact L.decode_of_override hc hname ht
    · rw [Value.child?_cons_of_ne hname, ← L.get_of_override hc hname ht]
      exact hrest

/-- Whether an entry is taken does not depend on the record that it overrides. -/
theorem override_isOk_iff : (∃ s', r.override d s e = .ok s') ↔
    ∃ c ∈ L.columns, c.name = e.name ∧ ∃ x, c.decode d e.node = .ok x := by
  constructor
  · rintro ⟨s', h⟩
    obtain ⟨c, hc, hname, x, hx, -⟩ := L.exists_of_override h
    exact ⟨c, hc, hname, x, hx⟩
  · rintro ⟨c, hc, hname, x, hx⟩
    exact ⟨c.put s x, by rw [L.override_of_mem hc hname, hx]; rfl⟩

theorem foldlM_isOk_iff : (∃ s', es.foldlM (r.override d) s = .ok s') ↔
    ∀ e ∈ es, ∃ c ∈ L.columns, c.name = e.name ∧ ∃ x, c.decode d e.node = .ok x := by
  induction es generalizing s with
  | nil => exact ⟨fun _ => List.forall_mem_nil _, fun _ => ⟨s, rfl⟩⟩
  | cons e es ih =>
    rw [List.forall_mem_cons, ← L.override_isOk_iff (s := s)]
    simp only [List.foldlM_cons, Except.bind_eq_ok_iff]
    constructor
    · rintro ⟨s', t, ht, h⟩
      exact ⟨⟨t, ht⟩, ih.1 ⟨s', h⟩⟩
    · rintro ⟨⟨t, ht⟩, h⟩
      obtain ⟨s', hs'⟩ := ih.2 h
      exact ⟨s', t, ht, hs'⟩

/-! #### A table -/

theorem missing?_eq_none_iff : r.missing? es = none ↔
    ∀ c ∈ L.columns, c.required = true → ((Value.table es).child? c.name).isSome := by
  simp only [Record.missing?, List.find?_eq_none, L.fields_eq, List.forall_mem_map,
    Column.field_name, Column.field_required, Value.child?, Value.entries, Option.isSome_map,
    List.find?_isSome]
  simp

variable {d : Dialect}

theorem decode_eq_ok_iff (htable : n.value.isTable = true) : r.decode d n = .ok s ↔
    n.value.entries.foldlM (r.override d) r.defaults = .ok s ∧
      ∀ c ∈ L.columns, c.required = true → (n.value.child? c.name).isSome := by
  rw [Value.eq_table htable, ← L.missing?_eq_none_iff, Record.decode, Value.eq_table htable]
  simp only [Record.ofTable, Value.entries, Except.bind_eq_ok_iff]
  constructor
  · rintro ⟨t, ht, h⟩
    split at h
    · cases h
    · rename_i hnone
      cases h
      exact ⟨ht, hnone⟩
  · rintro ⟨ht, hnone⟩
    exact ⟨s, ht, by rw [hnone]; rfl⟩

/-- What a table must be like so that a record is decoded from it. -/
theorem decode_isOk_iff (htable : n.value.isTable = true)
    (hnames : (n.value.entries.map Entry.name).Nodup) :
    (∃ s, r.decode d n = .ok s) ↔
      (∀ e ∈ n.value.entries, e.name ∈ r.names) ∧
      (∀ c ∈ L.columns, c.required = true → (n.value.child? c.name).isSome) ∧
      ∀ c ∈ L.columns, Accepts c.decode d (n.value.child? c.name) := by
  simp only [L.decode_eq_ok_iff htable, exists_and_right, L.foldlM_isOk_iff, L.mem_names_iff]
  constructor
  · rintro ⟨h, hrequired⟩
    refine ⟨fun e he => ?_, hrequired, fun c hc m hm => ?_⟩
    · obtain ⟨c, hc, hname, -⟩ := h e he
      exact ⟨c, hc, hname⟩
    · obtain ⟨e, he, hname, rfl⟩ := Value.exists_of_child? hm
      obtain ⟨c', hc', hname', hx⟩ := h e he
      rwa [L.eq_of_name hc hc' (hname.symm.trans hname'.symm)]
  · rintro ⟨hknown, hrequired, haccepts⟩
    refine ⟨fun e he => ?_, hrequired⟩
    obtain ⟨c, hc, hname⟩ := hknown e he
    exact ⟨c, hc, hname, haccepts c hc e.node (hname ▸ Value.child?_of_mem hnames he)⟩

theorem gives_of_decode (htable : n.value.isTable = true)
    (hnames : (n.value.entries.map Entry.name).Nodup) (h : r.decode d n = .ok s) :
    ∀ c ∈ L.columns, Gives c.decode d (n.value.child? c.name) (c.get r.defaults) (c.get s) := by
  intro c hc
  rw [Value.eq_table htable]
  exact L.gives_of_foldlM hc hnames ((L.decode_eq_ok_iff htable).1 h).1

/-! #### An array -/

theorem get_of_set {a b : Column σ} (hab : a.Apart b) {m : Node} (h : b.field.set d m s = .ok s') :
    a.get s' = a.get s := by
  obtain ⟨x, -, rfl⟩ := Except.map_eq_ok_iff.1 h
  exact hab.2.1 s x

/-- The first column comes from the first item of an array, where there is one. -/
theorem gives_of_ofArray {c : Column σ} {cs : List (Column σ)} (hcolumns : L.columns = c :: cs)
    {at_ : Extent} {ns : List Node} (h : r.ofArray d at_ ns = .ok s) :
    Gives c.decode d ns.head? (c.get r.defaults) (c.get s) := by
  have hapart := L.apart
  rw [hcolumns, List.pairwise_cons] at hapart
  obtain ⟨t, ht, h⟩ := Except.bind_eq_ok_iff.1 h
  obtain rfl : t = s := by
    split at h
    · cases h
    · split at h
      · cases h
      · exact Except.ok.inj h
  rw [L.fields_eq, hcolumns] at ht
  cases ns with
  | nil =>
    cases ht
    rfl
  | cons m ms =>
    rw [List.map_cons, List.zip_cons_cons, List.foldlM_cons] at ht
    obtain ⟨u, hu, ht⟩ := Except.bind_eq_ok_iff.1 ht
    obtain ⟨x, hx, rfl⟩ := Except.map_eq_ok_iff.1 hu
    -- the fields after the first leave it alone
    have hkeeps : c.get t = x := by
      refine Except.foldlM_keeps (P := fun u => c.get u = x) (fun p hp u u' hu hset => ?_)
        (c.get_put _ hx) ht
      obtain ⟨b, hb, hfield⟩ := List.mem_map.1 (List.of_mem_zip hp).1
      dsimp only at hset
      rw [← hfield] at hset
      exact (get_of_set (hapart.1 b hb) hset).trans hu
    exact hx.trans (congrArg Except.ok hkeeps.symm)

/-- The first column of a record comes from the entry of its name or from the first item. -/
theorem gives_first {c : Column σ} {cs : List (Column σ)} (hcolumns : L.columns = c :: cs)
    (hnames : (n.value.entries.map Entry.name).Nodup) (h : r.decode d n = .ok s) :
    Gives c.decode d (n.first? c.name) (c.get r.defaults) (c.get s) := by
  cases hv : n.value with
  | table es =>
    have htable : n.value.isTable = true := by rw [hv]; rfl
    have hgives := L.gives_of_decode htable hnames h c (hcolumns ▸ List.mem_cons_self)
    have hnone : n.value.items.head? = none := by rw [hv]; rfl
    rwa [Node.first?, hnone, Option.or_none]
  | array ns =>
    rw [Record.decode, hv] at h
    have hnone : n.value.child? c.name = none := by rw [hv]; rfl
    rw [Node.first?, hnone, Option.none_or, hv]
    exact L.gives_of_ofArray hcolumns h
  | _ =>
    rw [Record.decode, hv] at h
    cases h

/-! ### Records within a document -/

section

variable {root : Node} {p : List String} (hroot : root.value.Distinct)

include hroot in
/-- The first column of a record at a path, where there may be none. -/
theorem gives_first_at {c : Column σ} {cs : List (Column σ)} (hcolumns : L.columns = c :: cs)
    (h : Gives r.decode d (root.at? p) r.defaults s) :
    Gives c.decode d ((root.at? p).bind (·.first? c.name)) (c.get r.defaults) (c.get s) := by
  cases hn : root.at? p with
  | none =>
    rw [hn] at h
    exact congrArg c.get h
  | some n =>
    rw [hn] at h
    exact L.gives_first hcolumns (hroot.of_at? hn).names h

variable (htable : ∀ n ∈ root.at? p, n.value.isTable = true)

include hroot htable

/-- A table at a path is taken if its names are known, the required ones are there, and each of its
values is taken. -/
theorem accepts_iff : Accepts r.decode d (root.at? p) ↔
    (∀ n ∈ root.at? p, ∀ e ∈ n.value.entries, e.name ∈ r.names) ∧
    ((root.at? p).isSome → ∀ c ∈ L.columns, c.required = true →
      (root.at? (p ++ [c.name])).isSome) ∧
    ∀ c ∈ L.columns, Accepts c.decode d (root.at? (p ++ [c.name])) := by
  simp only [Node.at?_concat]
  cases hn : root.at? p with
  | none => simp [Accepts]
  | some n =>
    have hdecode := L.decode_isOk_iff (d := d) (htable n hn) (hroot.of_at? hn).names
    simpa [Accepts] using hdecode

/-- The columns of a record come from the values below its table. Without the table they are those
of the default, and so they are where it is empty, unless the columns are required. -/
theorem gives_column {default s : σ}
    (hdefault : default = r.defaults ∨ ∀ c ∈ L.columns, c.required = true)
    (h : Gives r.decode d (root.at? p) default s) :
    ∀ c ∈ L.columns, Gives c.decode d (root.at? (p ++ [c.name])) (c.get default) (c.get s) := by
  intro c hc
  rw [Node.at?_concat]
  cases hn : root.at? p with
  | none =>
    rw [hn] at h
    exact congrArg c.get h
  | some n =>
    rw [hn] at h
    have hgives := L.gives_of_decode (htable n hn) (hroot.of_at? hn).names h c hc
    obtain rfl | hrequired := hdefault
    · exact hgives
    · have hsome := ((L.decode_eq_ok_iff (htable n hn)).1 h).2 c hc (hrequired c hc)
      obtain ⟨m, hm⟩ := Option.isSome_iff_exists.1 hsome
      rw [hm] at hgives
      rw [Option.bind_some, hm]
      exact hgives

end

end Layout

end Mockup.Config
