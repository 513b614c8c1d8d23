import Mockup.Proofs.Config.Overriding

/-! Loading a configuration: what its file sets, and that loading is reading and then validating. -/

namespace Mockup.Config

open Network

variable {text : String} {c : Config}

/-- What a document, if there is one, sets the address to, or else the default. -/
def SetsAddress (n : Option Node) : SocketAddress → Prop :=
  Gives Decoder.address .toml
    (n.bind fun n => (n.at? ["server"]).bind (·.first? "listen_address")) defaultListenAddress

/-- What a document, if there is one, sets the base address to, or else the default. -/
def SetsUrl (n : Option Node) : Url → Prop :=
  Gives Decoder.url .toml (n.bind fun n => (n.at? ["ollama"]).bind (·.first? "base_url"))
    defaultBaseUrl

theorem exists_sets (h : ofToml text = .ok c) :
    ∃ n, Toml.read? text.toList = some n ∧ SetsAddress n c.server.listenAddress ∧
      SetsUrl n c.backend.baseUrl := by
  cases hread : Toml.read? text.toList with
  | none =>
    unfold ofToml at h
    rw [hread] at h
    cases h
  | some n =>
    obtain ⟨htop, hdistinct⟩ := Toml.read?_distinct hread
    have hdecode := (ofToml_eq_ok_iff hread).1 h
    have hall := layout.gives_column hdistinct (p := []) (by simpa using htop) (.inl rfl)
      (d := .toml) (s := c) hdecode
    simp only [layout, Column.of, List.forall_mem_cons, List.nil_append] at hall
    obtain ⟨hserver, hbackend, -⟩ := hall
    exact ⟨n, rfl, serverLayout.gives_first_at hdistinct rfl hserver,
      backendLayout.gives_first_at hdistinct rfl hbackend⟩

/-! ### Files -/

variable {d : Disk} {path : Option String}

/-- The file that a path names holds a document. Without a path there is none. -/
inductive Stored (d : Disk) : Option String → Option Node → Prop where
  | defaults : Stored d none none
  | file {path text : String} {n : Node} (htext : d.readText path = .ok text)
    (hn : Toml.read? text.toList = some n) : Stored d (some path) (some n)

/-- What is read from the file, if there is one, before anything is checked. -/
def parseOrDefault (d : Disk) : Option String → Except LoadError Config
  | none => .ok {}
  | some path =>
    match d.readText path with
    | .error e => .error (.unreadable path e)
    | .ok text => ofToml text

theorem exists_stored (h : parseOrDefault d path = .ok c) :
    ∃ n, Stored d path n ∧ SetsAddress n c.server.listenAddress ∧ SetsUrl n c.backend.baseUrl := by
  cases path with
  | none =>
    cases h
    exact ⟨none, .defaults, rfl, rfl⟩
  | some path =>
    unfold parseOrDefault at h
    dsimp only at h
    split at h
    · cases h
    · rename_i text htext
      obtain ⟨n, hn, hsets⟩ := exists_sets h
      exact ⟨some n, .file htext hn, hsets⟩

/-- Loading is reading and then validating. -/
theorem loadOrDefault_eq (d : Disk) (path : Option String) :
    loadOrDefault d path = parseOrDefault d path >>= fun c =>
      (c.validate.mapError .flawed).map fun _ => c := by
  cases path with
  | none =>
    have hvalidate : ({} : Config).validate = .ok () := by decide +kernel
    change Except.ok ({} : Config) =
      (({} : Config).validate.mapError LoadError.flawed).map fun _ => {}
    rw [hvalidate]
    rfl
  | some path =>
    dsimp only [parseOrDefault, loadOrDefault, Option.elim, load]
    cases d.readText path with
    | error e => rfl
    | ok text =>
      refine bind_congr fun c => ?_
      cases c.validate with
      | error flaw => rfl
      | ok u => rfl

theorem loadOrDefault_eq_ok_iff : loadOrDefault d path = .ok c ↔
    parseOrDefault d path = .ok c ∧ c.validate = .ok () := by
  rw [loadOrDefault_eq, Except.bind_eq_ok_iff]
  constructor
  · rintro ⟨c', hparse, h⟩
    obtain ⟨u, hvalidate, rfl⟩ := Except.map_eq_ok_iff.1 h
    exact ⟨hparse, Except.mapError_eq_ok_iff.1 hvalidate⟩
  · rintro ⟨hparse, hvalidate⟩
    exact ⟨c, hparse, by rw [hvalidate]; rfl⟩

theorem ne_flawed_of_parseOrDefault {e : LoadError} (h : parseOrDefault d path = .error e)
    (flaw : Flaw) : e ≠ .flawed flaw := by
  rintro rfl
  cases path with
  | none => cases h
  | some path =>
    unfold parseOrDefault ofToml at h
    dsimp only at h
    split at h
    · cases h
    · split at h
      · cases h
      · split at h
        · cases h
        · split at h <;> cases h

end Mockup.Config
