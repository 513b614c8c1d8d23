import Mathlib.Data.List.Forall2
import Mathlib.Data.List.Infix
import Mockup.Proofs.Text.Words
import Mockup.Proofs.Toml.Sight

/-! What the statements of a TOML text say, each with the full path of its table. As long as there
are no arrays of tables, the document is settled by what is said and not by the order. -/

namespace Mockup.Toml

/-! ### Sayings -/

/-- What a statement says: that there is a value, or a table, or one more table in an array. -/
inductive Saying where
  | value (path : List String) (n : Node)
  | table (path : List String)
  | element (path : List String)

namespace Saying

def path : Saying → List String
  | value p _ | table p | element p => p

/-- The saying, of a place below another one. -/
def under (p : List String) : Saying → Saying
  | value q n => value (p ++ q) n
  | table q => table (p ++ q)
  | element q => element (p ++ q)

/-- What is seen in a document because of the saying: a value and the tables on the way to it, or a
table and those on the way to it. -/
def Shows : Saying → List String → Sight → Prop
  | value p n, q, x => q = p ∧ x = .value n ∨ q <+: p ∧ q ≠ p ∧ x = .table
  | table p, q, x => q <+: p ∧ x = .table
  | element _, _, _ => False

def IsElement : Saying → Prop
  | element _ => True
  | _ => False

theorem prefix_append_iff {q p r : List String} :
    q <+: p ++ r ↔ q <+: p ∨ ∃ r', q = p ++ r' ∧ r' <+: r := by
  constructor
  · intro h
    obtain h' | ⟨r', rfl⟩ := List.prefix_or_prefix_of_prefix h (List.prefix_append p r)
    · exact .inl h'
    · exact .inr ⟨r', rfl, (List.prefix_append_right_inj p).1 h⟩
  · rintro (h | ⟨r', rfl, h⟩)
    · exact List.prefix_append_of_prefix h
    · exact (List.prefix_append_right_inj p).2 h

theorem shows_under {s : Saying} (hs : ¬ s.IsElement) (hpath : s.path ≠ []) (p q : List String)
    (x : Sight) : (s.under p).Shows q x ↔
      (q <+: p ∧ x = .table) ∨ ∃ r, q = p ++ r ∧ s.Shows r x := by
  cases s with
  | value p' n =>
    have hne (h : q <+: p) : q ≠ p ++ p' := by
      rintro rfl
      have hlength := h.length_le
      rw [List.length_append] at hlength
      have hzero : p'.length = 0 := by omega
      exact hpath (List.eq_nil_of_length_eq_zero hzero)
    simp only [under, Shows, prefix_append_iff]
    constructor
    · rintro (⟨rfl, rfl⟩ | ⟨h | ⟨r, rfl, h⟩, hq, rfl⟩)
      · exact .inr ⟨p', rfl, .inl ⟨rfl, rfl⟩⟩
      · exact .inl ⟨h, rfl⟩
      · exact .inr ⟨r, rfl, .inr ⟨h, fun he => hq (he ▸ rfl), rfl⟩⟩
    · rintro (⟨h, rfl⟩ | ⟨r, rfl, ⟨rfl, rfl⟩ | ⟨h, hr, rfl⟩⟩)
      · exact .inr ⟨.inl h, hne h, rfl⟩
      · exact .inl ⟨rfl, rfl⟩
      · exact .inr ⟨.inr ⟨r, rfl, h⟩, fun he => hr (List.append_cancel_left he), rfl⟩
  | table p' =>
    simp only [under, Shows, prefix_append_iff]
    constructor
    · rintro ⟨h | ⟨r, rfl, h⟩, rfl⟩
      · exact .inl ⟨h, rfl⟩
      · exact .inr ⟨r, rfl, h, rfl⟩
    · rintro (⟨h, rfl⟩ | ⟨r, rfl, h, rfl⟩)
      · exact ⟨.inl h, rfl⟩
      · exact ⟨.inr ⟨r, rfl, h⟩, rfl⟩
  | element p' => exact absurd trivial hs

end Saying

/-- No array of tables is seen. -/
def Table.Plain (t : Table) : Prop := ∀ q, t.sight q ≠ some .tables

/-- In the second table one sees what one sees in the first, and what the saying shows. -/
def Table.Gains (t t' : Table) (s : Saying) : Prop :=
  ∀ q x, t'.sight q = some x ↔ t.sight q = some x ∨ s.Shows q x

namespace Table

variable {t t' : Table} {s : Saying}

theorem Gains.plain (h : t.Gains t' s) (ht : t.Plain) : t'.Plain := by
  intro q hq
  obtain hq | hq := (h q _).1 hq
  · exact ht q hq
  · cases s with
    | value p n => obtain ⟨-, he⟩ | ⟨-, -, he⟩ := hq <;> cases he
    | table p => cases hq.2
    | element p => exact hq

theorem gains_update {dotted : Bool} {path : List Key} {f : Table → Option Table}
    (hs : ¬ s.IsElement) (hpath : s.path ≠ [])
    (hf : ∀ c c', c.Plain → f c = some c' → c.Gains c' s) (ht : t.Plain)
    (h : t.update dotted path f = some t') : t.Gains t' (s.under (path.map Key.name)) := by
  intro q x
  rw [Saying.shows_under hs hpath, sight_update hf ht h]

theorem prefix_singleton_iff {q : List String} {name : String} :
    q <+: [name] ↔ q = [] ∨ q = [name] := by
  simp [List.prefix_cons_iff]

theorem gains_assign {path : List Key} {k : Key} {n : Node} (ht : t.Plain)
    (h : t.assign path k n = some t') :
    t.Gains t' (.value ((path ++ [k]).map Key.name) n) := by
  obtain ⟨f, hu, hf⟩ := exists_update_of_assign h
  rw [List.map_append]
  refine gains_update (s := .value [k.name] n) id nofun (fun c c' _ hc q x => ?_) ht hu
  obtain ⟨hfind, rfl⟩ := hf c c' hc
  have hvalue (r : List String) : (Branch.value n).sight r = some x ↔ r = [] ∧ .value n = x := by
    cases r <;> simp [Branch.sight]
  rw [sight_add hfind]
  simp only [hvalue, Saying.Shows, prefix_singleton_iff]
  constructor
  · rintro (hx | ⟨_, rfl, rfl, rfl⟩)
    · exact .inl hx
    · exact .inr (.inl ⟨rfl, rfl⟩)
  · rintro (hx | ⟨rfl, rfl⟩ | ⟨rfl | hq, hne, rfl⟩)
    · exact .inl hx
    · exact .inr ⟨[], rfl, rfl, rfl⟩
    · exact .inl c.sight_nil
    · exact absurd hq hne

theorem gains_define {path : List Key} {k : Key} {header : Extent} (ht : t.Plain)
    (h : t.define path k header = some t') :
    t.Gains t' (.table ((path ++ [k]).map Key.name)) := by
  obtain ⟨f, hu, hf⟩ := exists_update_of_define h
  rw [List.map_append]
  refine gains_update (s := .table [k.name]) id nofun (fun c c' _ hc q x => ?_) ht hu
  simp only [Saying.Shows, prefix_singleton_iff]
  obtain ⟨hfind, rfl⟩ | ⟨c₁, hfind, rfl⟩ := hf c c' hc
  · rw [sight_add hfind]
    constructor
    · rintro (hx | ⟨r, rfl, hr⟩)
      · exact .inl hx
      · obtain ⟨rfl, rfl⟩ := (sight_empty _ _ r x).1 hr
        exact .inr ⟨.inr rfl, rfl⟩
    · rintro (hx | ⟨rfl | rfl, rfl⟩)
      · exact .inl hx
      · exact .inl c.sight_nil
      · exact .inr ⟨[], rfl, rfl⟩
  · rw [sight_retake hfind]
    constructor
    · exact .inl
    · rintro (hx | ⟨rfl | rfl, rfl⟩)
      · exact hx
      · exact c.sight_nil
      · rw [sight_cons, hfind]
        rfl

end Table

/-! ### Runs -/

/-- What the statements say, behind a header that leads to `current`. -/
def sayings : (current : List String) → List Statement → List Saying
  | _, [] => []
  | current, .assign path k n :: ss =>
    .value (current ++ (path ++ [k]).map Key.name) n :: sayings current ss
  | _, .define path k _ :: ss =>
    .table ((path ++ [k]).map Key.name) :: sayings ((path ++ [k]).map Key.name) ss
  | _, .append path k _ :: ss =>
    .element ((path ++ [k]).map Key.name) :: sayings ((path ++ [k]).map Key.name) ss

/-- What a statement says, behind a header that leads to `current`. -/
def Statement.saying (current : List String) : Statement → Saying
  | .assign path k n => .value (current ++ (path ++ [k]).map Key.name) n
  | .define path k _ => .table ((path ++ [k]).map Key.name)
  | .append path k _ => .element ((path ++ [k]).map Key.name)

/-- Where the header leads to that the statements behind this one stand under. -/
def Statement.leads (current : List String) : Statement → List String
  | .assign .. => current
  | .define path k _ | .append path k _ => (path ++ [k]).map Key.name

theorem sayings_cons (current : List String) (s : Statement) (ss : List Statement) :
    sayings current (s :: ss) = s.saying current :: sayings (s.leads current) ss := by
  cases s <;> rfl

namespace Draft.Step

variable {d d' : Draft} {s : Statement}

theorem leads_eq (h : d.Step s d') :
    s.leads (d.current.map Key.name) = d'.current.map Key.name := by
  cases h <;> rfl

theorem gains (h : d.Step s d') (hd : d.root.Plain)
    (hs : ¬ (s.saying (d.current.map Key.name)).IsElement) :
    d.root.Gains d'.root (s.saying (d.current.map Key.name)) := by
  cases h with
  | @assign path k n t ht =>
    exact Table.gains_update (s := .value ((path ++ [k]).map Key.name) n) id
      (by simp [Saying.path]) (fun _ _ => Table.gains_assign) hd ht
  | define ht => exact Table.gains_define hd ht
  | append ht => exact absurd trivial hs

end Draft.Step

/-- A run of statements adds what they say, one after another. -/
theorem sight_run {d d' : Draft} {ss : List Statement} (hd : d.root.Plain)
    (hss : ∀ s ∈ sayings (d.current.map Key.name) ss, ¬ s.IsElement)
    (h : ss.foldlM Statement.apply? d = some d') (q : List String) (x : Sight) :
    d'.root.sight q = some x ↔
      d.root.sight q = some x ∨ ∃ s ∈ sayings (d.current.map Key.name) ss, s.Shows q x := by
  induction ss generalizing d with
  | nil =>
    cases h
    simp [sayings]
  | cons s ss ih =>
    rw [List.foldlM_cons] at h
    obtain ⟨d₁, hd₁, h⟩ := Option.bind_eq_some_iff.1 h
    have hstep := Draft.step_of_apply? hd₁
    rw [sayings_cons, hstep.leads_eq, List.forall_mem_cons] at hss
    have hgains := hstep.gains hd hss.1
    rw [ih (hgains.plain hd) hss.2 h, hgains q x, sayings_cons, hstep.leads_eq]
    simp only [List.mem_cons, exists_eq_or_imp, or_assoc]

/-- In the document of a text without arrays of tables one sees the document itself and what its
statements say. -/
theorem seen_iff {d : Draft} {ss : List Statement} (hss : ∀ s ∈ sayings [] ss, ¬ s.IsElement)
    (h : ss.foldlM Statement.apply? {} = some d) (q : List String) (x : Sight) :
    d.root.sight q = some x ↔
      (q = [] ∧ x = .table) ∨ ∃ s ∈ sayings [] ss, s.Shows q x := by
  have hplain : Table.Plain ⟨.header, {}, []⟩ := by
    intro q hq
    cases ((Table.sight_empty _ _ q _).1 hq).2
  rw [sight_run (d := {}) hplain hss h, Table.sight_empty]
  rfl

/-! ### Runs with arrays of tables -/

namespace Draft.Step

variable {d d' : Draft} {s : Statement} {q : List String}

/-- No statement takes an array of tables away. -/
theorem tables (h : d.Step s d') (hq : d.root.sight q = some .tables) :
    d'.root.sight q = some .tables := by
  cases h with
  | assign ht => exact Table.tables_update (fun c c' q hc hq => Table.tables_assign hc hq) ht hq
  | define ht => exact Table.tables_define ht hq
  | append ht => exact Table.tables_append ht hq

theorem exists_tables (h : d.Step s d') {current : List String}
    (hs : (s.saying current).IsElement) : ∃ q, d'.root.sight q = some .tables := by
  cases h with
  | assign ht => cases hs
  | define ht => cases hs
  | append ht => exact Table.exists_tables_append ht

end Draft.Step

/-- After a statement that puts a table into an array there is such an array. -/
theorem exists_tables_run {d d' : Draft} {ss : List Statement}
    (hss : (∃ q, d.root.sight q = some .tables) ∨
      ∃ s ∈ sayings (d.current.map Key.name) ss, s.IsElement)
    (h : ss.foldlM Statement.apply? d = some d') : ∃ q, d'.root.sight q = some .tables := by
  induction ss generalizing d with
  | nil =>
    cases h
    obtain hq | ⟨s, hs, -⟩ := hss
    · exact hq
    · cases hs
  | cons s ss ih =>
    rw [List.foldlM_cons] at h
    obtain ⟨d₁, hd₁, h⟩ := Option.bind_eq_some_iff.1 h
    have hstep := Draft.step_of_apply? hd₁
    refine ih ?_ h
    rw [sayings_cons, hstep.leads_eq] at hss
    obtain ⟨q, hq⟩ | ⟨x, hx, helement⟩ := hss
    · exact .inl ⟨q, hstep.tables hq⟩
    · obtain rfl | hx := List.mem_cons.1 hx
      · exact .inl (hstep.exists_tables helement)
      · exact .inr ⟨x, hx, helement⟩

/-! ### Texts in another order -/

/-- Two sayings of the same, but for extents and the order within inline tables. -/
inductive Saying.Alike : Saying → Saying → Prop where
  | value (path : List String) {n m : Node} (h : n.value.Alike m.value) :
      Saying.Alike (.value path n) (.value path m)
  | table (path : List String) : Saying.Alike (.table path) (.table path)
  | element (path : List String) : Saying.Alike (.element path) (.element path)

namespace Saying.Alike

variable {a b : Saying} {q : List String} {x y : Sight}

theorem isElement_iff (h : a.Alike b) : a.IsElement ↔ b.IsElement := by cases h <;> exact Iff.rfl

theorem exists_left (h : a.Alike b) (hx : a.Shows q x) : ∃ y, b.Shows q y ∧ x.Alike y := by
  cases h with
  | value p hnm =>
    obtain ⟨rfl, rfl⟩ | ⟨hq, hne, rfl⟩ := hx
    · exact ⟨_, .inl ⟨rfl, rfl⟩, .value hnm⟩
    · exact ⟨_, .inr ⟨hq, hne, rfl⟩, .table⟩
  | table p =>
    obtain ⟨hq, rfl⟩ := hx
    exact ⟨_, ⟨hq, rfl⟩, .table⟩
  | element p => cases hx

theorem exists_right (h : a.Alike b) (hy : b.Shows q y) : ∃ x, a.Shows q x ∧ x.Alike y := by
  cases h with
  | value p hnm =>
    obtain ⟨rfl, rfl⟩ | ⟨hq, hne, rfl⟩ := hy
    · exact ⟨_, .inl ⟨rfl, rfl⟩, .value hnm⟩
    · exact ⟨_, .inr ⟨hq, hne, rfl⟩, .table⟩
  | table p =>
    obtain ⟨hq, rfl⟩ := hy
    exact ⟨_, ⟨hq, rfl⟩, .table⟩
  | element p => cases hy

end Saying.Alike

/-- The statements of the second text say what those of the first one say, in some order. -/
def Reordered (s s' : List Char) : Prop :=
  ∃ ss ss' l, statements? s = some ss ∧ statements? s' = some ss' ∧ l.Perm (sayings [] ss) ∧
    List.Forall₂ Saying.Alike l (sayings [] ss')

theorem optionRel_of {α β : Type} {R : α → β → Prop} {o : Option α} {o' : Option β}
    (hleft : ∀ a, o = some a → ∃ b, o' = some b ∧ R a b)
    (hright : ∀ b, o' = some b → ∃ a, o = some a ∧ R a b) : Option.Rel R o o' := by
  cases o with
  | none =>
    cases o' with
    | none => exact .none
    | some b =>
      obtain ⟨a, ha, -⟩ := hright b rfl
      cases ha
  | some a =>
    obtain ⟨b, rfl, h⟩ := hleft a rfl
    exact .some h

/-- Texts that say the same in another order hold alike documents, or documents with arrays of
tables, where the order does count. -/
theorem alike_of_reordered {s s' : List Char} {n n' : Node} (h : Reordered s s')
    (hn : read? s = some n) (hn' : read? s' = some n') :
    n.value.Alike n'.value ∨ HasTables n ∧ HasTables n' := by
  obtain ⟨ss, ss', l, hss, hss', hperm, hl⟩ := h
  obtain ⟨ss₁, d, hss₁, hd, rfl⟩ := read?_eq_some_iff.1 hn
  obtain rfl := Option.some.inj (hss₁.symm.trans hss)
  obtain ⟨ss₂, d', hss₂, hd', rfl⟩ := read?_eq_some_iff.1 hn'
  obtain rfl := Option.some.inj (hss₂.symm.trans hss')
  have hleft (a : Saying) (ha : a ∈ sayings [] ss₁) : ∃ b ∈ sayings [] ss₂, a.Alike b :=
    Text.exists_of_mem_left hl a (hperm.mem_iff.2 ha)
  have hright (b : Saying) (hb : b ∈ sayings [] ss₂) : ∃ a ∈ sayings [] ss₁, a.Alike b := by
    obtain ⟨a, ha, hab⟩ := Text.exists_of_mem_left (R := flip Saying.Alike) hl.flip b hb
    exact ⟨a, hperm.mem_iff.1 ha, hab⟩
  have hsound : d.root.Sound := sound_of_run hss hd
  have hsound' : d'.root.Sound := sound_of_run hss' hd'
  by_cases helement : ∃ a ∈ sayings [] ss₁, a.IsElement
  · obtain ⟨a, ha, hae⟩ := helement
    obtain ⟨b, hb, hab⟩ := hleft a ha
    obtain ⟨q, hq⟩ := exists_tables_run (d := {}) (.inr ⟨a, ha, hae⟩) hd
    obtain ⟨q', hq'⟩ := exists_tables_run (d := {})
      (.inr ⟨b, hb, hab.isElement_iff.1 hae⟩) hd'
    exact .inr ⟨hsound.hasTables hq, hsound'.hasTables hq'⟩
  · have hplain (a : Saying) (ha : a ∈ sayings [] ss₁) : ¬ a.IsElement :=
      fun hae => helement ⟨a, ha, hae⟩
    have hplain' (b : Saying) (hb : b ∈ sayings [] ss₂) : ¬ b.IsElement := fun hbe => by
      obtain ⟨a, ha, hab⟩ := hright b hb
      exact hplain a ha (hab.isElement_iff.2 hbe)
    have hseen := seen_iff hplain hd
    have hseen' := seen_iff hplain' hd'
    refine .inl (Table.node_alike hsound hsound' fun q =>
      optionRel_of (fun x hx => ?_) fun y hy => ?_)
    · obtain hnil | ⟨a, ha, hshows⟩ := (hseen q x).1 hx
      · exact ⟨x, (hseen' q x).2 (.inl hnil), hnil.2 ▸ .table⟩
      · obtain ⟨b, hb, hab⟩ := hleft a ha
        obtain ⟨y, hy, hxy⟩ := hab.exists_left hshows
        exact ⟨y, (hseen' q y).2 (.inr ⟨b, hb, hy⟩), hxy⟩
    · obtain hnil | ⟨b, hb, hshows⟩ := (hseen' q y).1 hy
      · exact ⟨y, (hseen q y).2 (.inl hnil), hnil.2 ▸ .table⟩
      · obtain ⟨a, ha, hab⟩ := hright b hb
        obtain ⟨x, hx, hxy⟩ := hab.exists_right hshows
        exact ⟨x, (hseen q x).2 (.inr ⟨a, ha, hx⟩), hxy⟩

example : Reordered "[x]\na=true\n[y]".toList "[y]\n[x]\na=true".toList := by
  have h : (statements? "[x]\na=true\n[y]".toList).map (sayings []) =
      some [.table ["x"], .value ["x", "a"] ⟨⟨6, 10⟩, .boolean true⟩, .table ["y"]] := by cbv
  have h' : (statements? "[y]\n[x]\na=true".toList).map (sayings []) =
      some [.table ["y"], .table ["x"], .value ["x", "a"] ⟨⟨10, 14⟩, .boolean true⟩] := by cbv
  obtain ⟨ss, hss, hs⟩ := Option.map_eq_some_iff.1 h
  obtain ⟨ss', hss', hs'⟩ := Option.map_eq_some_iff.1 h'
  refine ⟨ss, ss', [.table ["y"], .table ["x"], .value ["x", "a"] ⟨⟨6, 10⟩, .boolean true⟩], hss,
    hss', ?_, ?_⟩
  · rw [hs]
    exact .trans (.swap _ _ _) (.cons _ (.swap _ _ _))
  · rw [hs']
    exact .cons (.table _) (.cons (.table _) (.cons (.value _ (.refl _)) .nil))

end Mockup.Toml
