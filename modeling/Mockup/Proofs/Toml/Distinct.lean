import Mockup.Proofs.Document
import Mockup.Proofs.Toml.Table
import Mockup.Toml.Reader

/-! What reading TOML yields: a table in which, as in all tables below it, no name comes twice. -/

namespace Mockup.Toml

/-! ### Tables under construction -/

namespace Branch

theorem entries_eq_map (bs : List (Key × Branch)) :
    Branch.entries bs = bs.map fun x => ⟨x.1, x.2.node⟩ := by
  induction bs with
  | nil => rfl
  | cons x bs ih => rw [Branch.entries, ih, List.map_cons]

theorem elements_eq_map (ts : List Table) : Branch.elements ts = ts.map Table.node := by
  induction ts with
  | nil => rfl
  | cons t ts ih =>
    obtain ⟨o, e, bs⟩ := t
    rw [Branch.elements, ih, List.map_cons, Table.node, Branch.node]

theorem node_table_value (t : Table) :
    (Branch.table t).node.value = .table (Entry.sort (Branch.entries t.entries)) := by
  obtain ⟨o, e, bs⟩ := t
  rw [Branch.node]

/-- No name comes twice in a branch, neither in the tables under construction nor in the finished
values, and arrays of tables have elements. -/
inductive Sound : Branch → Prop where
  | value {n : Node} (h : n.value.Distinct) : Sound (.value n)
  | table {t : Table} (names : (t.entries.map (·.1.name)).Nodup)
      (branches : ∀ x ∈ t.entries, Sound x.2) : Sound (.table t)
  | tables {extent : Extent} {ts : List Table} (elements : ts ≠ [])
      (h : ∀ t ∈ ts, Sound (.table t)) : Sound (.tables extent ts)

theorem Sound.node_distinct {b : Branch} (h : b.Sound) : b.node.value.Distinct := by
  induction h with
  | value h => exact h
  | @table t _ _ ih =>
    rw [node_table_value, entries_eq_map]
    refine .intro (Entry.nodup_sort _) (fun e he => ?_) nofun
    obtain ⟨x, hx, rfl⟩ := List.mem_map.1 (Entry.mem_of_mem_sort he)
    exact ih x hx
  | @tables _ ts _ _ ih =>
    rw [Branch.node, elements_eq_map]
    refine .intro List.nodup_nil nofun fun n hn => ?_
    obtain ⟨t, ht, rfl⟩ := List.mem_map.1 hn
    exact ih t ht

end Branch

namespace Table

/-- The table under construction is sound, and so is everything in it. -/
def Sound (t : Table) : Prop := (Branch.table t).Sound

namespace Sound

variable {t t' : Table} {b : Branch} {k : Key} {name : String} {path : List Key} {header : Extent}

theorem empty (o : Origin) (e : Extent) : Sound ⟨o, e, []⟩ := .table List.nodup_nil nofun

theorem names (h : t.Sound) : (t.entries.map (·.1.name)).Nodup := by
  cases h with
  | table names _ => exact names

theorem branches (h : t.Sound) : ∀ x ∈ t.entries, x.2.Sound := by
  cases h with
  | table _ branches => exact branches

theorem find (h : t.Sound) (hb : t.find? name = some b) : b.Sound := by
  obtain ⟨x, hx, rfl⟩ := exists_of_find? hb
  exact h.branches x hx

theorem add (h : t.Sound) (hk : t.find? k.name = none) (hb : b.Sound) : (t.add k b).Sound := by
  refine .table ?_ fun x hx => ?_
  · have hfresh : ∀ m ∈ t.entries.map (·.1.name), ∀ m' ∈ [k.name], m ≠ m' := by
      rintro m hm _ hm' rfl
      exact find?_eq_none_iff.1 hk (List.mem_singleton.1 hm' ▸ hm)
    rw [Table.add, List.map_append, List.map_singleton]
    exact List.nodup_append.2 ⟨h.names, List.nodup_singleton _, hfresh⟩
  · obtain hx | hx := List.mem_append.1 hx
    · exact h.branches x hx
    · rw [List.mem_singleton.1 hx]
      exact hb

theorem replace (h : t.Sound) (name : String) (hb : b.Sound) : (t.replace name b).Sound := by
  refine .table ?_ fun x hx => ?_
  · rw [Table.replace, List.map_map]
    exact h.names
  · obtain ⟨y, hy, rfl⟩ := List.mem_map.1 hx
    dsimp only
    split_ifs
    · exact hb
    · exact h.branches y hy

theorem remove (h : t.Sound) (name : String) : (t.remove name).Sound :=
  .table (h.names.sublist (List.filter_sublist.map _)) fun x hx =>
    h.branches x (List.mem_of_mem_filter hx)

/-- What a change keeps in the table at a path it keeps in the whole. -/
theorem update {dotted : Bool} {f : Table → Option Table}
    (hf : ∀ t t', t.Sound → f t = some t' → t'.Sound) (h : t.Sound)
    (hu : t.update dotted path f = some t') : t'.Sound := by
  induction path generalizing t t' with
  | nil => exact hf t t' h hu
  | cons k path ih =>
    obtain ⟨o, c', hfind, hc, rfl⟩ | ⟨c, c', hfind, hc, rfl⟩ |
      ⟨e, ts, last, last', hfind, hlast, hc, rfl⟩ := update_cons_cases hu
    · exact h.add hfind (ih (empty _ _) hc)
    · exact h.replace _ (ih (h.find hfind) hc)
    · cases h.find hfind with
      | tables _ helements =>
        refine h.replace _ (.tables (by simp) fun t ht => ?_)
        obtain ht | ht := List.mem_append.1 ht
        · exact helements t ((List.dropLast_sublist ts).subset ht)
        · rw [List.mem_singleton.1 ht]
          exact ih (helements last (List.mem_of_getLast? hlast)) hc

theorem assign {n : Node} (h : t.Sound) (hn : n.value.Distinct)
    (ha : t.assign path k n = some t') : t'.Sound := by
  obtain ⟨f, hu, hf⟩ := exists_update_of_assign ha
  refine h.update (fun c c' hc hcc' => ?_) hu
  obtain ⟨hfind, rfl⟩ := hf c c' hcc'
  exact hc.add hfind (.value hn)

theorem define (h : t.Sound) (hd : t.define path k header = some t') : t'.Sound := by
  obtain ⟨f, hu, hf⟩ := exists_update_of_define hd
  refine h.update (fun c c' hc hcc' => ?_) hu
  obtain ⟨hfind, rfl⟩ | ⟨c₁, hfind, rfl⟩ := hf c c' hcc'
  · exact hc.add hfind (empty _ _)
  · have hc₁ : c₁.Sound := hc.find hfind
    refine (hc.remove _).add ?_ (.table hc₁.names hc₁.branches)
    rw [find?_remove, if_pos rfl]

theorem append (h : t.Sound) (ha : t.append path k header = some t') : t'.Sound := by
  obtain ⟨f, hu, hf⟩ := exists_update_of_append ha
  refine h.update (fun c c' hc hcc' => ?_) hu
  have hnew : ∀ x ∈ [(⟨.header, header, []⟩ : Table)], x.Sound :=
    List.forall_mem_singleton.2 (empty _ _)
  obtain ⟨hfind, rfl⟩ | ⟨e, ts, hfind, rfl⟩ := hf c c' hcc'
  · exact hc.add hfind (.tables (by simp) hnew)
  · cases hc.find hfind with
    | tables _ helements =>
      exact hc.replace _ (.tables (by simp) (List.forall_mem_append.2 ⟨helements, hnew⟩))

end Sound

end Table

/-! ### Values -/

/-- A bare word stands for a value without parts. -/
theorem value?_distinct {s : List Char} {v : Value} (h : value? s = some v) : v.Distinct := by
  suffices hplain : v.entries = [] ∧ v.items = [] from .of_plain hplain.1 hplain.2
  unfold value? at h
  cases hsign : Number.readSign s with
  | mk neg name =>
    simp only [hsign] at h
    repeat' split at h
    all_goals cases h
    all_goals exact ⟨rfl, rfl⟩

theorem bare?_distinct {ts rest : Tokens} {v : Value} (h : bare? ts = some (v, rest)) :
    v.Distinct := by
  unfold bare? at h
  dsimp only at h
  split at h
  · split at h
    · cases h
      exact .of_plain rfl rfl
    · obtain ⟨w, hw, he⟩ := Option.map_eq_some_iff.1 h
      cases he
      exact value?_distinct hw
  · obtain ⟨w, hw, he⟩ := Option.map_eq_some_iff.1 h
    cases he
    exact value?_distinct hw

variable {ts rest : Tokens} {n : Node}

/-- What is read with so much fuel has no name twice. -/
structure DistinctWithin (fuel : Nat) : Prop where
  node : ∀ {depth ts n rest}, node? fuel depth ts = some (n, rest) → n.value.Distinct
  items : ∀ {depth ts ns rest}, items? fuel depth ts = some (ns, rest) →
    ∀ n ∈ ns, n.value.Distinct
  entries : ∀ {depth ts t t' rest}, t.Sound → entries? fuel depth t ts = some (t', rest) →
    t'.Sound

namespace DistinctWithin

variable {fuel depth : Nat} {ns : List Node} {t t' : Table}

theorem node_succ (ih : DistinctWithin fuel) (h : node? (fuel + 1) depth ts = some (n, rest)) :
    n.value.Distinct := by
  unfold node? at h
  split at h
  · cases h
    exact .of_plain rfl rfl
  · obtain ⟨⟨v, rest'⟩, hv, he⟩ := Option.map_eq_some_iff.1 h
    cases he
    exact bare?_distinct hv
  · split_ifs at h
    · obtain ⟨⟨ns, rest'⟩, hns, he⟩ := Option.map_eq_some_iff.1 h
      cases he
      exact .intro List.nodup_nil nofun (ih.items hns)
    · obtain ⟨⟨t, rest'⟩, ht, he⟩ := Option.map_eq_some_iff.1 h
      cases he
      exact Branch.Sound.node_distinct (ih.entries (.empty _ _) ht)
  · cases h

theorem items_succ (ih : DistinctWithin fuel)
    (h : items? (fuel + 1) depth ts = some (ns, rest)) : ∀ n ∈ ns, n.value.Distinct := by
  unfold items? at h
  dsimp only at h
  split at h
  · cases h
    exact List.forall_mem_nil _
  · obtain ⟨⟨n, ts'⟩, hn, h⟩ := Option.bind_eq_some_iff.1 h
    dsimp only at h
    split at h
    · obtain ⟨⟨ns', rest'⟩, hns, h⟩ := Option.bind_eq_some_iff.1 h
      cases h
      exact List.forall_mem_cons.2 ⟨ih.node hn, ih.items hns⟩
    · obtain ⟨⟨e, rest'⟩, -, h⟩ := Option.bind_eq_some_iff.1 h
      cases h
      exact List.forall_mem_singleton.2 (ih.node hn)

theorem entries_succ (ih : DistinctWithin fuel) (ht : t.Sound)
    (h : entries? (fuel + 1) depth t ts = some (t', rest)) : t'.Sound := by
  unfold entries? at h
  dsimp only at h
  split at h
  · cases h
    exact ht
  · obtain ⟨⟨path, key, ts₁⟩, -, h⟩ := Option.bind_eq_some_iff.1 h
    obtain ⟨⟨e, ts₂⟩, -, h⟩ := Option.bind_eq_some_iff.1 h
    obtain ⟨⟨n, ts₃⟩, hn, h⟩ := Option.bind_eq_some_iff.1 h
    obtain ⟨t₁, ht₁, h⟩ := Option.bind_eq_some_iff.1 h
    have hsound : t₁.Sound := ht.assign (ih.node hn) ht₁
    dsimp only at h
    split at h
    · exact ih.entries hsound h
    · obtain ⟨⟨e', rest'⟩, -, h⟩ := Option.bind_eq_some_iff.1 h
      cases h
      exact hsound

end DistinctWithin

/-- By induction on the fuel, for values, items and entries at once: each reads its parts with less
fuel. -/
theorem distinctWithin (fuel : Nat) : DistinctWithin fuel := by
  induction fuel with
  | zero => exact ⟨nofun, nofun, nofun⟩
  | succ fuel ih => exact ⟨ih.node_succ, ih.items_succ, ih.entries_succ⟩

/-! ### Documents -/

/-- What a statement assigns has no name twice. -/
def Statement.Sound : Statement → Prop
  | .assign _ _ n => n.value.Distinct
  | .define .. | .append .. => True

theorem sound_of_header? {s : Statement} (h : header? ts = some (s, rest)) : s.Sound := by
  unfold header? at h
  split at h
  · obtain ⟨⟨path, key, ts₁⟩, -, h⟩ := Option.bind_eq_some_iff.1 h
    obtain ⟨⟨first, ts₂⟩, -, h⟩ := Option.bind_eq_some_iff.1 h
    obtain ⟨⟨last, ts₃⟩, -, h⟩ := Option.bind_eq_some_iff.1 h
    dsimp only at h
    split at h <;> cases h
    trivial
  · obtain ⟨⟨path, key, ts₁⟩, -, h⟩ := Option.bind_eq_some_iff.1 h
    obtain ⟨⟨b, ts₂⟩, -, h⟩ := Option.bind_eq_some_iff.1 h
    cases h
    trivial
  · cases h

theorem sound_of_statement? {s : Statement} (h : statement? ts = some (s, rest)) : s.Sound := by
  unfold statement? at h
  split at h
  · rename_i hheader
    cases h
    exact sound_of_header? hheader
  · cases h
  · obtain ⟨⟨path, key, ts₁⟩, -, h⟩ := Option.bind_eq_some_iff.1 h
    obtain ⟨⟨e, ts₂⟩, -, h⟩ := Option.bind_eq_some_iff.1 h
    obtain ⟨⟨n, ts₃⟩, hn, h⟩ := Option.bind_eq_some_iff.1 h
    cases h
    exact (distinctWithin _).node hn

theorem sound_of_statementsWithin {fuel : Nat} {ss : List Statement}
    (h : statementsWithin fuel ts = some ss) : ∀ s ∈ ss, s.Sound := by
  fun_induction statementsWithin fuel ts generalizing ss with
  | case1 =>
    cases h
    exact List.forall_mem_nil _
  | case2 => cases h
  | case3 =>
    rename_i ih
    obtain ⟨⟨s, ts₁⟩, hs, h⟩ := Option.bind_eq_some_iff.1 h
    dsimp only at h
    split at h
    · cases h
      exact List.forall_mem_singleton.2 (sound_of_statement? hs)
    · obtain ⟨ss', hss, h⟩ := Option.bind_eq_some_iff.1 h
      cases h
      exact List.forall_mem_cons.2 ⟨sound_of_statement? hs, ih _ hss⟩
    · cases h

/-- What a statement makes of a draft. -/
inductive Draft.Step (d : Draft) : Statement → Draft → Prop where
  | assign {path : List Key} {key : Key} {n : Node} {t : Table}
    (h : d.root.update false d.current (·.assign path key n) = some t) :
    d.Step (.assign path key n) { d with root := t }
  | define {path : List Key} {key : Key} {header : Extent} {t : Table}
    (h : d.root.define path key header = some t) :
    d.Step (.define path key header) ⟨t, path ++ [key]⟩
  | append {path : List Key} {key : Key} {header : Extent} {t : Table}
    (h : d.root.append path key header = some t) :
    d.Step (.append path key header) ⟨t, path ++ [key]⟩

theorem Draft.step_of_apply? {d d' : Draft} {s : Statement} (h : s.apply? d = some d') :
    d.Step s d' := by
  cases s with
  | assign path key n =>
    obtain ⟨t, ht, h⟩ := Option.bind_eq_some_iff.1 h
    cases h
    exact .assign ht
  | define path key header =>
    obtain ⟨t, ht, h⟩ := Option.bind_eq_some_iff.1 h
    cases h
    exact .define ht
  | append path key header =>
    obtain ⟨t, ht, h⟩ := Option.bind_eq_some_iff.1 h
    cases h
    exact .append ht

theorem Draft.Step.sound {d d' : Draft} {s : Statement} (h : d.Step s d') (hs : s.Sound)
    (hd : d.root.Sound) : d'.root.Sound := by
  cases h with
  | assign ht => exact hd.update (fun _ _ h' => h'.assign hs) ht
  | define ht => exact hd.define ht
  | append ht => exact hd.append ht

theorem Draft.sound_run {d d' : Draft} {ss : List Statement} (hs : ∀ s ∈ ss, s.Sound)
    (hd : d.root.Sound) (h : ss.foldlM Statement.apply? d = some d') : d'.root.Sound := by
  induction ss generalizing d with
  | nil =>
    cases h
    exact hd
  | cons s ss ih =>
    rw [List.foldlM_cons] at h
    obtain ⟨d₁, hd₁, h⟩ := Option.bind_eq_some_iff.1 h
    rw [List.forall_mem_cons] at hs
    exact ih hs.2 ((Draft.step_of_apply? hd₁).sound hs.1 hd) h

/-- The statements of a text. -/
def statements? (s : List Char) : Option (List Statement) :=
  (tokens? s).bind fun ts => statementsWithin ts.length ts

theorem read?_eq_some_iff {s : List Char} {n : Node} : read? s = some n ↔
    ∃ ss d, statements? s = some ss ∧ ss.foldlM Statement.apply? {} = some d ∧
      d.root.node = n := by
  constructor
  · intro h
    obtain ⟨ts, hts, h⟩ := Option.bind_eq_some_iff.1 h
    obtain ⟨ss, hss, h⟩ := Option.bind_eq_some_iff.1 h
    obtain ⟨d, hd, h⟩ := Option.bind_eq_some_iff.1 h
    exact ⟨ss, d, Option.bind_eq_some_iff.2 ⟨ts, hts, hss⟩, hd, Option.some.inj h⟩
  · rintro ⟨ss, d, h, hd, rfl⟩
    obtain ⟨ts, hts, hss⟩ := Option.bind_eq_some_iff.1 h
    simp only [Option.bind_eq_bind, read?, hts, hss, hd, Option.bind_some]
    rfl

theorem sound_of_run {s : List Char} {ss : List Statement} {d : Draft}
    (hss : statements? s = some ss) (hd : ss.foldlM Statement.apply? {} = some d) :
    d.root.Sound := by
  obtain ⟨ts, -, hss⟩ := Option.bind_eq_some_iff.1 hss
  exact Draft.sound_run (sound_of_statementsWithin hss) (.empty _ _) hd

/-- A text holds a table without a name that comes twice. -/
theorem read?_distinct {s : List Char} (h : read? s = some n) :
    n.value.isTable = true ∧ n.value.Distinct := by
  obtain ⟨ss, d, hss, hd, rfl⟩ := read?_eq_some_iff.1 h
  refine ⟨?_, Branch.Sound.node_distinct (sound_of_run hss hd)⟩
  rw [Table.node, Branch.node_table_value]
  rfl

end Mockup.Toml
