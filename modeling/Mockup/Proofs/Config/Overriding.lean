import Mockup.Config.Load
import Mockup.Proofs.Config.Alike
import Mockup.Proofs.Config.Sections
import Mockup.Proofs.Toml.Saying

/-! A configuration is the defaults overridden setting by setting. -/

namespace Mockup.Config

open Decoder Number

/-- The sections are tables, where they are there, and the format of the log is a text. -/
def Sectioned (n : Node) : Prop :=
  (∀ s ∈ sections, ∀ m ∈ n.at? s.path, m.value.isTable = true) ∧
    ∀ m ∈ n.at? ["telemetry", "format"], m.value.isString = true

instance (n : Node) : Decidable (Sectioned n) :=
  decidable_of_iff
    (sections.all (fun s => (n.at? s.path).all (·.value.isTable)) &&
      (n.at? ["telemetry", "format"]).all (·.value.isString))
    (by simp [Sectioned, Option.all_eq_true])

/-- Each table holds known names only. -/
def Known (n : Node) : Prop :=
  ∀ s ∈ top :: sections, ∀ m ∈ n.at? s.path, ∀ e ∈ m.value.entries, e.name ∈ s.names

/-- A stage that is there has a model and a temperature. -/
def Complete (n : Node) : Prop :=
  ∀ stage ∈ ["vision", "codegen"], (n.at? ["pipeline", stage]).isSome →
    ∀ name ∈ ["model", "temperature"], (n.at? ["pipeline", stage, name]).isSome

/-- Each value is taken for its setting. -/
def Fits (n : Node) : Prop := ∀ s ∈ settings, Accepts s.decode .toml (n.at? s.path)

/-- The setting is the decoded value, if there is one, and otherwise the default. -/
def Setting.Holds (s : Setting) (n : Node) (c : Config) : Prop :=
  match n.at? s.path with
  | some m => ∃ x, s.decode .toml m = .ok x ∧ s.get c = some x
  | none => s.get c = s.get {}

variable {n : Node} {c : Config}

theorem Sectioned.isTable (h : Sectioned n) {p : List String}
    (hp : p ∈ sections.map Section.path) : ∀ m ∈ n.at? p, m.value.isTable = true := by
  obtain ⟨s, hs, rfl⟩ := List.mem_map.1 hp
  exact h.1 s hs

theorem optional_of_isTable {α : Type} (decode : Decoder α) (d : Dialect) {m : Node}
    (h : m.value.isTable = true) : Decoder.optional decode d m = (decode d m).map some := by
  obtain ⟨e, v⟩ := m
  cases v <;> first | rfl | cases h

theorem accepts_optional_iff {α : Type} {decode : Decoder α} {d : Dialect} {o : Option Node}
    (htable : ∀ m ∈ o, m.value.isTable = true) :
    Accepts (Decoder.optional decode) d o ↔ Accepts decode d o := by
  refine forall₂_congr fun m hm => ?_
  rw [optional_of_isTable decode d (htable m hm)]
  simp [Except.map_eq_ok_iff]

/-- A configuration is decoded from a document if all names are known, the stages are complete, and
each value fits. By the layouts of the nine sections, from the document down. -/
theorem decode_isOk_iff (htop : n.value.isTable = true) (hdistinct : n.value.Distinct)
    (hn : Sectioned n) :
    (∃ c, record.decode .toml n = .ok c) ↔ Known n ∧ Complete n ∧ Fits n := by
  have hcors := hn.isTable (p := ["server", "cors"]) (by decide)
  have h₀ := layout.accepts_iff (d := .toml) hdistinct (p := []) (by simpa using htop)
  have h₁ := serverLayout.accepts_iff (d := .toml) hdistinct
    (hn.isTable (p := ["server"]) (by decide))
  have h₂ := healthLayout.accepts_iff (d := .toml) hdistinct
    (hn.isTable (p := ["server", "health"]) (by decide))
  have h₃ := corsLayout.accepts_iff (d := .toml) hdistinct hcors
  have h₄ := backendLayout.accepts_iff (d := .toml) hdistinct
    (hn.isTable (p := ["ollama"]) (by decide))
  have h₅ := retryLayout.accepts_iff (d := .toml) hdistinct
    (hn.isTable (p := ["ollama", "retry"]) (by decide))
  have h₆ := pipelineLayout.accepts_iff (d := .toml) hdistinct
    (hn.isTable (p := ["pipeline"]) (by decide))
  have h₇ := stageLayout.accepts_iff (d := .toml) hdistinct
    (hn.isTable (p := ["pipeline", "vision"]) (by decide))
  have h₈ := stageLayout.accepts_iff (d := .toml) hdistinct
    (hn.isTable (p := ["pipeline", "codegen"]) (by decide))
  have h₉ := telemetryLayout.accepts_iff (d := .toml) hdistinct
    (hn.isTable (p := ["telemetry"]) (by decide))
  simp only [layout, serverLayout, healthLayout, corsLayout, backendLayout, retryLayout,
    pipelineLayout, stageLayout, telemetryLayout, Column.of, List.forall_mem_cons,
    List.not_mem_nil, false_implies, implies_true, and_true, List.nil_append, List.cons_append,
    Bool.false_eq_true, true_implies, true_and, Node.at?_nil, accepts_optional_iff hcors]
    at h₀ h₁ h₂ h₃ h₄ h₅ h₆ h₇ h₈ h₉
  have haccepts : (∃ c, record.decode .toml n = .ok c) ↔ Accepts record.decode .toml (some n) := by
    simp [Accepts]
  rw [haccepts, h₀, h₁, h₂, h₃, h₄, h₅, h₆, h₇, h₈, h₉]
  -- the same conditions on both sides, in another order
  clear haccepts h₀ h₁ h₂ h₃ h₄ h₅ h₆ h₇ h₈ h₉ hcors hn
  simp only [record_names, serverRecord_names, healthRecord_names, corsRecord_names,
    backendRecord_names, retryRecord_names, pipelineRecord_names, stageRecord_names,
    telemetryRecord_names, Known, Complete, Fits, top, sections, settings, List.forall_mem_cons,
    List.not_mem_nil, false_implies, implies_true, and_true, Node.at?_nil]
  grind

theorem stageLayout_required : ∀ c ∈ stageLayout.columns, c.required = true := by
  simp [stageLayout]

/-- A policy for other origins is there whatever a table says, and comes from it as a record does.
-/
theorem exists_of_gives_optional {α : Type} {decode : Decoder α} {d : Dialect} {o : Option Node}
    {default : α} {x : Option α} (htable : ∀ m ∈ o, m.value.isTable = true)
    (h : Gives (Decoder.optional decode) d o (some default) x) :
    ∃ y, x = some y ∧ Gives decode d o default y := by
  cases ho : o with
  | none =>
    rw [ho] at h
    exact ⟨default, h, rfl⟩
  | some m =>
    rw [ho] at h
    change Decoder.optional decode d m = .ok x at h
    rw [optional_of_isTable decode d (htable m ho)] at h
    obtain ⟨y, hy, rfl⟩ := Except.map_eq_ok_iff.1 h
    exact ⟨y, rfl, hy⟩

theorem Setting.Holds.of_gives {α : Type} {path : List String} {decode : Decoder α}
    {get : Config → Option α} {x₀ x : α} (h : Gives decode .toml (n.at? path) x₀ x)
    (h₀ : get {} = some x₀) (hx : get c = some x) : Setting.Holds ⟨path, decode, get⟩ n c := by
  cases hm : n.at? path with
  | some m =>
    rw [hm] at h
    have hholds : ∃ y, decode .toml m = .ok y ∧ get c = some y := ⟨x, h, hx⟩
    simpa only [Setting.Holds, hm] using hholds
  | none =>
    rw [hm] at h
    have hholds : get c = get {} := by rw [hx, h₀, show x = x₀ from h]
    simpa only [Setting.Holds, hm] using hholds

theorem holds_of_decode (htop : n.value.isTable = true) (hdistinct : n.value.Distinct)
    (hn : Sectioned n) (h : record.decode .toml n = .ok c) : ∀ s ∈ settings, s.Holds n c := by
  have h₀ := layout.gives_column hdistinct (p := []) (by simpa using htop) (.inl rfl)
    (d := .toml) (s := c) h
  simp only [layout, Column.of, List.forall_mem_cons, List.nil_append] at h₀
  obtain ⟨h₁, h₂, h₃, h₄, -⟩ := h₀
  have h₁ := serverLayout.gives_column hdistinct (hn.isTable (by decide)) (.inl rfl) h₁
  have h₂ := backendLayout.gives_column hdistinct (hn.isTable (by decide)) (.inl rfl) h₂
  have h₃ := pipelineLayout.gives_column hdistinct (hn.isTable (by decide)) (.inl rfl) h₃
  have h₄ := telemetryLayout.gives_column hdistinct (hn.isTable (by decide)) (.inl rfl) h₄
  simp only [serverLayout, backendLayout, pipelineLayout, telemetryLayout, Column.of,
    List.forall_mem_cons, List.cons_append, List.nil_append] at h₁ h₂ h₃ h₄
  obtain ⟨hlisten, hupload, hlimit, h₅, h₆, -⟩ := h₁
  obtain ⟨hurl, htimeout, h₇, -⟩ := h₂
  obtain ⟨h₈, h₉, -⟩ := h₃
  obtain ⟨hfilter, hformat, -⟩ := h₄
  obtain ⟨k, hk, h₆⟩ := exists_of_gives_optional (hn.isTable (by decide)) h₆
  have h₅ := healthLayout.gives_column hdistinct (hn.isTable (by decide)) (.inl rfl) h₅
  have h₆ := corsLayout.gives_column hdistinct (hn.isTable (by decide)) (.inl rfl) h₆
  have h₇ := retryLayout.gives_column hdistinct (hn.isTable (by decide)) (.inl rfl) h₇
  have h₈ := stageLayout.gives_column hdistinct (hn.isTable (by decide))
    (.inr stageLayout_required) h₈
  have h₉ := stageLayout.gives_column hdistinct (hn.isTable (by decide))
    (.inr stageLayout_required) h₉
  simp only [healthLayout, corsLayout, retryLayout, stageLayout, Column.of,
    List.forall_mem_cons, List.cons_append, List.nil_append] at h₅ h₆ h₇ h₈ h₉
  obtain ⟨henabled, hpath, -⟩ := h₅
  obtain ⟨horigins, hmethods, hheaders, hcredentials, hage, -⟩ := h₆
  obtain ⟨hattempts, hdelay, -⟩ := h₇
  obtain ⟨hvmodel, hvtemperature, -⟩ := h₈
  obtain ⟨hcmodel, hctemperature, -⟩ := h₉
  simp only [settings, List.forall_mem_cons]
  refine ⟨.of_gives hlisten rfl rfl, .of_gives hupload rfl rfl, .of_gives hlimit rfl rfl,
    .of_gives henabled rfl rfl, .of_gives hpath rfl rfl,
    .of_gives horigins rfl (by rw [hk]; rfl), .of_gives hmethods rfl (by rw [hk]; rfl),
    .of_gives hheaders rfl (by rw [hk]; rfl), .of_gives hcredentials rfl (by rw [hk]; rfl),
    .of_gives hage rfl (by rw [hk]; rfl),
    .of_gives hurl rfl rfl, .of_gives htimeout rfl rfl, .of_gives hattempts rfl rfl,
    .of_gives hdelay rfl rfl, .of_gives hvmodel rfl rfl, .of_gives hvtemperature rfl rfl,
    .of_gives hcmodel rfl rfl, .of_gives hctemperature rfl rfl, .of_gives hfilter rfl rfl,
    .of_gives hformat rfl rfl, List.forall_mem_nil _⟩

/-! ### Places of a document that is taken -/

theorem setting_of_path_ne : ∀ s ∈ settings, s.path ≠ ["telemetry", "format"] →
    Blind s.decode .toml ∧ Tableless s.decode .toml := by
  have h {α : Type} {decode : Decoder α} (h : Plain decode .toml) :
      Blind decode .toml ∧ Tableless decode .toml := ⟨h.blind, h.tableless⟩
  have hallowed : Blind allowed .toml ∧ Tableless allowed .toml :=
    ⟨allowed_blind, allowed_tableless⟩
  simp only [settings, List.forall_mem_cons]
  exact ⟨fun _ => h .address, fun _ => h (.text _), fun _ => h (.natural _ _), fun _ => h .boolean,
    fun _ => h (.text _), fun _ => hallowed, fun _ => hallowed, fun _ => hallowed,
    fun _ => h .boolean, fun _ => h (.optional (.natural _ _)), fun _ => h .url,
    fun _ => h (.optional (.text _)), fun _ => h (.natural _ _), fun _ => h (.text _),
    fun _ => h (.text _), fun _ => h .single, fun _ => h (.text _), fun _ => h .single,
    fun _ => h (.text _), fun hne => absurd rfl hne, List.forall_mem_nil _⟩

theorem setting_of_path_eq : ∀ s ∈ settings, s.path = ["telemetry", "format"] →
    s = ⟨["telemetry", "format"], variant logFormats, fun c => some c.telemetry.format⟩ := by
  simp [settings]

variable {n' : Node} {c' : Config}

/-- A setting makes the same of values that say the same. -/
theorem Setting.decode_congr {s : Setting} (hs : s ∈ settings) (hn : Sectioned n) {m m' : Node}
    (hm : n.at? s.path = some m) (h : m.value.Alike m'.value) (x : s.α) :
    s.decode .toml m = .ok x ↔ s.decode .toml m' = .ok x := by
  by_cases hpath : s.path = ["telemetry", "format"]
  · have hstring : m.value.isString = true := hn.2 m (hpath ▸ hm)
    obtain rfl := setting_of_path_eq s hs hpath
    exact variant_congr hstring h x
  · exact (setting_of_path_ne s hs hpath).1 m m' h x

/-- What stands where a setting is taken from is neither a table nor an array of tables. -/
theorem Setting.tableless {s : Setting} (hs : s ∈ settings) (hn : Sectioned n) {m : Node}
    (hm : n.at? s.path = some m) (hfits : Accepts s.decode .toml (n.at? s.path)) :
    m.value.isTable = false ∧
      ∀ first rest, m.value = .array (first :: rest) → first.value.isTable = false := by
  by_cases hpath : s.path = ["telemetry", "format"]
  · obtain ⟨t, ht⟩ := Value.exists_of_isString (hn.2 m (hpath ▸ hm))
    rw [ht]
    exact ⟨rfl, nofun⟩
  · obtain ⟨x, hx⟩ := hfits m hm
    exact (setting_of_path_ne s hs hpath).2 m x hx

theorem Section.isTable {s : Section} (hs : s ∈ top :: sections) (htop : n.value.isTable = true)
    (hn : Sectioned n) {m : Node} (hm : n.at? s.path = some m) : m.value.isTable = true := by
  obtain rfl | hs := List.mem_cons.1 hs
  · cases hm
    exact htop
  · exact hn.1 s hs m hm

theorem path_of_name : ∀ s ∈ top :: sections, ∀ name ∈ s.names,
    s.path ++ [name] ∈ (top :: sections).map Section.path ++ settings.map Setting.path := by
  decide

/-- Nothing stands in a document that is taken but its sections and settings. By induction on the
path: only a section has parts. -/
theorem mem_paths (hn : Sectioned n) (hknown : Known n) (hfits : Fits n) {q : List String}
    {m : Node} (hm : n.at? q = some m) :
    q ∈ (top :: sections).map Section.path ++ settings.map Setting.path := by
  induction q using List.reverseRecOn generalizing m with
  | nil => exact List.mem_append_left _ List.mem_cons_self
  | append_singleton q name ih =>
    rw [Node.at?_concat] at hm
    obtain ⟨k, hk, hm⟩ := Option.bind_eq_some_iff.1 hm
    obtain ⟨e, he, rfl, -⟩ := Value.exists_of_child? hm
    obtain hq | hq := List.mem_append.1 (ih hk)
    · obtain ⟨s, hs, rfl⟩ := List.mem_map.1 hq
      exact path_of_name s hs e.name (hknown s hs k hk e he)
    · obtain ⟨s, hs, rfl⟩ := List.mem_map.1 hq
      have htable := (Setting.tableless hs hn hk (hfits s hs)).1
      rw [Value.isTable_of_mem he] at htable
      cases htable

theorem not_hasTables (htop : n.value.isTable = true) (hn : Sectioned n) (hknown : Known n)
    (hfits : Fits n) : ¬ Toml.HasTables n := by
  rintro ⟨q, m, first, rest, hm, hv, hfirst⟩
  obtain hq | hq := List.mem_append.1 (mem_paths hn hknown hfits hm)
  · obtain ⟨s, hs, rfl⟩ := List.mem_map.1 hq
    have htable := Section.isTable hs htop hn hm
    rw [hv] at htable
    cases htable
  · obtain ⟨s, hs, rfl⟩ := List.mem_map.1 hq
    have htable := (Setting.tableless hs hn hm (hfits s hs)).2 first rest hv
    rw [hfirst] at htable
    cases htable

/-! ### Documents that say the same -/

theorem Sectioned.congr (h : n.value.Alike n'.value) (hn : Sectioned n) : Sectioned n' := by
  refine ⟨fun s hs m' hm' => ?_, fun m' hm' => ?_⟩
  · obtain ⟨m, hm, halike⟩ := h.exists_left hm'
    rw [← halike.isTable_eq, hn.1 s hs m hm]
  · obtain ⟨m, hm, halike⟩ := h.exists_left hm'
    rw [← halike.isString_eq, hn.2 m hm]

/-- Each name under which something stands in a section is known. -/
theorem known_iff : Known n ↔ ∀ s ∈ top :: sections, ∀ name,
    (n.at? (s.path ++ [name])).isSome → name ∈ s.names := by
  refine forall₂_congr fun s _ => ⟨fun h name hname => ?_, fun h m hm e he => ?_⟩
  · rw [Node.at?_concat] at hname
    obtain ⟨k, hk⟩ := Option.isSome_iff_exists.1 hname
    obtain ⟨m, hm, hk⟩ := Option.bind_eq_some_iff.1 hk
    obtain ⟨e, he, rfl, -⟩ := Value.exists_of_child? hk
    exact h m hm e he
  · refine h e.name ?_
    rw [Node.at?_concat, hm]
    exact Value.child?_isSome_of_mem he

theorem known_congr (h : n.value.Alike n'.value) : Known n ↔ Known n' := by
  simp only [known_iff, h.isSome_at?]

theorem complete_congr (h : n.value.Alike n'.value) : Complete n ↔ Complete n' := by
  simp only [Complete, h.isSome_at?]

theorem fits_congr (hn : Sectioned n) (h : n.value.Alike n'.value) : Fits n ↔ Fits n' := by
  refine forall₂_congr fun s hs => ⟨fun hfits m' hm' => ?_, fun hfits m hm => ?_⟩
  · obtain ⟨m, hm, halike⟩ := h.exists_left hm'
    obtain ⟨x, hx⟩ := hfits m hm
    exact ⟨x, (Setting.decode_congr hs hn hm halike x).1 hx⟩
  · obtain ⟨m', hm', halike⟩ := h.exists_right hm
    obtain ⟨x, hx⟩ := hfits m' hm'
    exact ⟨x, (Setting.decode_congr hs hn hm halike x).2 hx⟩

/-- Settings that come from the same values are the same. -/
theorem Setting.get_eq {s : Setting} (hs : s ∈ settings) (hn : Sectioned n)
    (hrel : Option.Rel (fun m m' => m.value.Alike m'.value) (n.at? s.path) (n'.at? s.path))
    (h : s.Holds n c) (h' : s.Holds n' c') : s.get c = s.get c' := by
  unfold Setting.Holds at h h'
  generalize hm : n.at? s.path = o at h hrel
  generalize n'.at? s.path = o' at h' hrel
  cases hrel with
  | none => exact Eq.trans h (Eq.symm h')
  | some halike =>
    obtain ⟨x, hx, hget⟩ := h
    obtain ⟨x', hx', hget'⟩ := h'
    have heq : x = x' :=
      Except.ok.inj (((Setting.decode_congr hs hn hm halike x).1 hx).symm.trans hx')
    rw [hget, hget', heq]

/-! ### Texts -/

theorem ofToml_eq_ok_iff {text : String} (hread : Toml.read? text.toList = some n) :
    ofToml text = .ok c ↔ record.decode .toml n = .ok c := by
  unfold ofToml
  rw [hread]
  dsimp only
  cases record.decode .toml n with
  | ok c' => simp
  | error f =>
    dsimp only
    split <;> simp

section

variable {text text' : String} (hread : Toml.read? text.toList = some n) (hn : Sectioned n)
  (hread' : Toml.read? text'.toList = some n')

include hread hn

theorem ofToml_isOk_iff : (∃ c, ofToml text = .ok c) ↔ Known n ∧ Complete n ∧ Fits n := by
  obtain ⟨htop, hdistinct⟩ := Toml.read?_distinct hread
  simp only [ofToml_eq_ok_iff hread]
  exact decode_isOk_iff htop hdistinct hn

theorem holds_of_ofToml (h : ofToml text = .ok c) : ∀ s ∈ settings, s.Holds n c := by
  obtain ⟨htop, hdistinct⟩ := Toml.read?_distinct hread
  exact holds_of_decode htop hdistinct hn ((ofToml_eq_ok_iff hread).1 h)

/-- Arrays of tables, whose order does count, stand in no configuration. -/
theorem ofToml_ne_ok_of_hasTables (h : Toml.HasTables n) : ofToml text ≠ .ok c := by
  intro hc
  obtain ⟨hknown, -, hfits⟩ := (ofToml_isOk_iff hread hn).1 ⟨c, hc⟩
  exact not_hasTables (Toml.read?_distinct hread).1 hn hknown hfits h

include hread'

theorem eq_of_ofToml (hn' : Sectioned n')
    (hrel : ∀ s ∈ settings,
      Option.Rel (fun m m' => m.value.Alike m'.value) (n.at? s.path) (n'.at? s.path))
    (hc : ofToml text = .ok c) (hc' : ofToml text' = .ok c') : c = c' :=
  eq_of_settings fun s hs => Setting.get_eq hs hn (hrel s hs) (holds_of_ofToml hread hn hc s hs)
    (holds_of_ofToml hread' hn' hc' s hs)

theorem ofToml_congr (h : n.value.Alike n'.value) : ofToml text = .ok c ↔ ofToml text' = .ok c := by
  have hn' : Sectioned n' := hn.congr h
  have hiff : (∃ c, ofToml text = .ok c) ↔ ∃ c, ofToml text' = .ok c := by
    rw [ofToml_isOk_iff hread hn, ofToml_isOk_iff hread' hn', known_congr h, complete_congr h,
      fits_congr hn h]
  have hsame {c c' : Config} : ofToml text = .ok c → ofToml text' = .ok c' → c = c' :=
    eq_of_ofToml hread hn hread' hn' fun s _ => h.at? s.path
  constructor
  · intro hc
    obtain ⟨c', hc'⟩ := hiff.1 ⟨c, hc⟩
    rwa [hsame hc hc']
  · intro hc'
    obtain ⟨c₀, hc⟩ := hiff.2 ⟨c, hc'⟩
    rwa [← hsame hc hc']

theorem ofToml_reordered (hn' : Sectioned n') (h : Toml.Reordered text.toList text'.toList) :
    ofToml text = .ok c ↔ ofToml text' = .ok c := by
  obtain halike | ⟨htables, htables'⟩ := Toml.alike_of_reordered h hread hread'
  · exact ofToml_congr hread hn hread' halike
  · exact iff_of_false (ofToml_ne_ok_of_hasTables hread hn htables)
      (ofToml_ne_ok_of_hasTables hread' hn' htables')

end

/-- What the configuration in a text is, by the document that the text holds. -/
structure Overrides (text : String) (n : Node) : Prop where
  /-- It can be read if all names are known, the stages are complete, and each value fits. -/
  ok_iff : (∃ c, ofToml text = .ok c) ↔ Known n ∧ Complete n ∧ Fits n
  /-- Each setting comes from its own value, or is the default. -/
  holds : ∀ c, ofToml text = .ok c → ∀ s ∈ settings, s.Holds n c
  /-- Nothing else counts, such as whether a section is absent or empty. -/
  unique : ∀ text' n', Toml.read? text'.toList = some n' → Sectioned n' →
    (∀ s ∈ settings,
      Option.Rel (fun m m' => m.value.Alike m'.value) (n.at? s.path) (n'.at? s.path)) →
    ∀ c c', ofToml text = .ok c → ofToml text' = .ok c' → c = c'
  /-- Another text with a document that says the same holds the same configuration. -/
  alike : ∀ text' n', Toml.read? text'.toList = some n' → n.value.Alike n'.value →
    ∀ c, ofToml text = .ok c ↔ ofToml text' = .ok c
  /-- So does one that says the same in another order. -/
  reordered : ∀ text' n', Toml.read? text'.toList = some n' → Sectioned n' →
    Toml.Reordered text.toList text'.toList → ∀ c, ofToml text = .ok c ↔ ofToml text' = .ok c

/-- A configuration is the defaults, overridden setting by setting. -/
theorem ofToml_overrides {text : String} {n : Node} (hread : Toml.read? text.toList = some n)
    (hn : Sectioned n) : Overrides text n where
  ok_iff := ofToml_isOk_iff hread hn
  holds _ h := holds_of_ofToml hread hn h
  unique _ _ hread' hn' hrel _ _ hc hc' := eq_of_ofToml hread hn hread' hn' hrel hc hc'
  alike _ _ hread' h _ := ofToml_congr hread hn hread' h
  reordered _ _ hread' hn' h _ := ofToml_reordered hread hn hread' hn' h

/-- A text with one setting. -/
def formatText : String := "[telemetry]\nformat = \"json\"\n"

theorem overrides_formatText :
    ∃ n c, Toml.read? formatText.toList = some n ∧ Sectioned n ∧ ofToml formatText = .ok c ∧
      Overrides formatText n ∧ c.telemetry.format = .json := by
  have hread : (Toml.read? formatText.toList).any (fun n => decide (Sectioned n)) = true := by
    decide +kernel
  have hok : (ofToml formatText).toOption.any (fun c => c.telemetry.format = .json) = true := by
    decide +kernel
  obtain ⟨n, hread, hn⟩ := (Option.any_eq_true _ _).1 hread
  obtain ⟨c, hok, hformat⟩ := Except.exists_of_any hok
  have hn : Sectioned n := of_decide_eq_true hn
  exact ⟨n, c, hread, hn, hok, ofToml_overrides hread hn, of_decide_eq_true hformat⟩

end Mockup.Config
