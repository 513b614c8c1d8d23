import Mockup.Proofs.CommandLine.Precedence
import Mockup.Proofs.Config.Loading
import Mockup.Service

/-! How the program comes to its configuration. Each of two settings is taken from the command line,
the environment, the file or the defaults, in this order, and all else from the file or the
defaults. What is validated is never overridden, so that one validation would do. -/

namespace Mockup.Service

open Network CommandLine

variable {environment : String → Option String} {arguments : List String} {d : Disk}
  {o : CommandLine.Overrides} {setup : Setup}

/-! ### One validation -/

/-- A flaw is the same, found in what was loaded or in what was overridden. -/
def Refusal.plain : Refusal → Refusal
  | .unloadable (.flawed flaw) => .flawed flaw
  | r => r

theorem Refusal.message_plain (r : Refusal) : r.plain.message = r.message := by
  unfold plain
  split <;> rfl

theorem Refusal.code_plain (r : Refusal) : r.plain.code = r.code := by
  unfold plain
  split <;> rfl

/-- Reads and parses, overrides, and validates once. -/
def configureOnce (d : Disk) (o : CommandLine.Overrides) : Except Refusal Setup := do
  let parsed ← (Config.parseOrDefault d o.config).mapError .unloadable
  let config := o.apply parsed
  config.validate.mapError .flawed
  return ⟨config, o.config⟩

/-- No setting that is overridden is validated. -/
theorem validate_apply (o : CommandLine.Overrides) (c : Config) :
    (o.apply c).validate = c.validate := rfl

theorem configure_of_error {e : Config.LoadError}
    (h : Config.loadOrDefault d o.config = .error e) : configure d o = .error (.unloadable e) := by
  unfold configure
  rw [h]
  rfl

/-- What is loaded is valid, and so it is still when it is overridden. -/
theorem configure_of_ok {c : Config} (h : Config.loadOrDefault d o.config = .ok c) :
    configure d o = .ok ⟨o.apply c, o.config⟩ := by
  have hvalidate : (o.apply c).validate = .ok () :=
    (validate_apply o c).trans (Config.loadOrDefault_eq_ok_iff.1 h).2
  unfold configure
  rw [h]
  change ((o.apply c).validate.mapError Refusal.flawed >>= fun _ => pure _) = _
  rw [hvalidate]
  rfl

theorem configure_eq_ok_iff : configure d o = .ok setup ↔
    ∃ c, Config.loadOrDefault d o.config = .ok c ∧ setup = ⟨o.apply c, o.config⟩ := by
  cases h : Config.loadOrDefault d o.config with
  | error e => simp [configure_of_error h]
  | ok c => simp [configure_of_ok h, eq_comm]

theorem configureOnce_of_ok {c : Config} (h : Config.parseOrDefault d o.config = .ok c) :
    configureOnce d o =
      (c.validate.mapError Refusal.flawed).map fun _ => ⟨o.apply c, o.config⟩ := by
  unfold configureOnce
  rw [h, ← validate_apply o c]
  rfl

theorem configure_eq_once (d : Disk) (o : CommandLine.Overrides) :
    (configure d o).mapError Refusal.plain = configureOnce d o := by
  cases hparse : Config.parseOrDefault d o.config with
  | error e =>
    have hload : Config.loadOrDefault d o.config = .error e := by
      rw [Config.loadOrDefault_eq, hparse]
      rfl
    rw [configure_of_error hload, configureOnce, hparse]
    cases e with
    | flawed flaw => exact absurd rfl (Config.ne_flawed_of_parseOrDefault hparse flaw)
    | unreadable _ _ | malformed | unfit _ => rfl
  | ok c =>
    rw [configureOnce_of_ok hparse]
    cases hvalidate : c.validate with
    | error flaw =>
      have hload : Config.loadOrDefault d o.config = .error (.flawed flaw) := by
        rw [Config.loadOrDefault_eq, hparse]
        change (c.validate.mapError _).map _ = _
        rw [hvalidate]
        rfl
      rw [configure_of_error hload]
      rfl
    | ok u =>
      rw [configure_of_ok (Config.loadOrDefault_eq_ok_iff.2 ⟨hparse, hvalidate⟩)]
      rfl

/-! ### Layers -/

/-- A value is what the text of its setting is read as. Without a text it is what comes below. -/
def Layer {α : Type} (read : String → Option α) (below : α → Prop) (x : α) : Option String → Prop
  | some value => read value = some x
  | none => below x

/-- A configuration comes from the command line and the environment, from a document, and from the
defaults. -/
structure Layered (environment : String → Option String) (arguments : List String) (d : Disk)
    (n : Option Node) (setup : Setup) : Prop where
  path : ∀ t, SetBy environment arguments .config t → setup.configPath = t
  listen : ∀ t, SetBy environment arguments .listen t →
    Layer (SocketAddress.ofText? ·.toList) (Config.SetsAddress n)
      setup.config.server.listenAddress t
  baseUrl : ∀ t, SetBy environment arguments .baseUrl t →
    Layer (fun value => (Url.ofText value.toList).toOption) (Config.SetsUrl n)
      setup.config.backend.baseUrl t
  /-- The two settings apart, it is what was loaded. -/
  loaded : ∃ c, Config.loadOrDefault d setup.configPath = .ok c ∧ setup.config = { c with
    server := { c.server with listenAddress := setup.config.server.listenAddress }
    backend := { c.backend with baseUrl := setup.config.backend.baseUrl } }

theorem layer_of_holds {α : Type} {read : String → Option α} {below : α → Prop} {x₀ : α}
    {s : Switch} {f : α → Reading} (hf : f.Injective) {x : Option α} (hget : o.get s = x.map f)
    (hread : ∀ value, s.reading? value = (read value).map f) (h₀ : below x₀)
    {t : Option String} (h : o.Holds s t) : Layer read below (x.getD x₀) t := by
  cases t with
  | none =>
    have hnone : x = none := Option.map_eq_none_iff.1 (hget.symm.trans h)
    rw [hnone]
    exact h₀
  | some value =>
    obtain ⟨r, hr, hr'⟩ := h
    have heq : (read value).map f = x.map f := by rw [← hread, ← hget, hr, hr']
    have hsome : read value = x := Option.map_injective hf heq
    obtain ⟨a, ha, -⟩ := Option.map_eq_some_iff.1 (hget.symm.trans hr')
    change read value = some (x.getD x₀)
    rw [hsome, ha]
    rfl

theorem config_of_holds {t : Option String} (h : o.Holds .config t) : o.config = t := by
  cases t with
  | none => exact Option.map_eq_none_iff.1 h
  | some value =>
    obtain ⟨r, hr, hget⟩ := h
    obtain ⟨path, hpath, rfl⟩ := Option.map_eq_some_iff.1 hget
    obtain ⟨-, heq⟩ := Switch.reading?_config_eq_some_iff.1 hr
    cases heq
    exact hpath

theorem plan_of_run (h : CommandLine.read environment arguments = .ok (.run o)) (d : Disk) :
    plan environment arguments d = (configure d o).map .serve := by
  unfold plan
  rw [h]
  rfl

theorem layered_of_configure (h : CommandLine.read environment arguments = .ok (.run o))
    (hc : configure d o = .ok setup) :
    ∃ n, Config.Stored d setup.configPath n ∧ Layered environment arguments d n setup := by
  obtain ⟨c, hload, rfl⟩ := configure_eq_ok_iff.1 hc
  obtain ⟨n, hstored, haddress, hurl⟩ :=
    Config.exists_stored (Config.loadOrDefault_eq_ok_iff.1 hload).1
  refine ⟨n, hstored, fun t ht => ?_, fun t ht => ?_, fun t ht => ?_, c, hload, rfl⟩
  · exact config_of_holds (read_holds h (s := .config) nofun ht)
  · exact layer_of_holds (f := .address) (fun _ _ => Reading.address.inj) rfl (fun _ => rfl)
      haddress (read_holds h (s := .listen) nofun ht)
  · exact layer_of_holds (f := .url) (fun _ _ => Reading.url.inj) rfl (fun _ => rfl)
      hurl (read_holds h (s := .baseUrl) nofun ht)

/-- Where the configuration comes from that the service is built from, and that it does not matter
whether it is validated twice or once, after all is overridden. -/
theorem plan_layers (h : CommandLine.read environment arguments = .ok (.run o)) (d : Disk) :
    (plan environment arguments d).mapError Refusal.plain = (configureOnce d o).map .serve ∧
      ∀ setup, plan environment arguments d = .ok (.serve setup) →
        ∃ n, Config.Stored d setup.configPath n ∧ Layered environment arguments d n setup := by
  rw [plan_of_run h, ← configure_eq_once]
  refine ⟨?_, fun setup hplan => ?_⟩
  · cases configure d o with
    | error r => rfl
    | ok setup => rfl
  · obtain ⟨setup', hc, heq⟩ := Except.map_eq_ok_iff.1 hplan
    cases heq
    exact layered_of_configure h hc

/-! The address is on the command line and in the environment, which names a file with the base
address. -/

def sampleArguments : List String := ["--listen=0.0.0.0:9000"]

def sampleEnvironment : String → Option String
  | "FIGURA_LISTEN" => some "127.0.0.1:9001"
  | "FIGURA_CONFIG" => some "figura.toml"
  | _ => none

def sampleText : String := "[ollama]\nbase_url = \"http://gpu:1\"\n"

def sampleDisk : Disk where
  entries := [(["figura.toml"], .file (sampleText.toList.map (·.toNat.toUInt8)))]

theorem calls_sample : Calls .listen "--listen=0.0.0.0:9000".toList (some "0.0.0.0:9000") :=
  calls_iff.2 (by decide)

theorem gives_sample : Gives sampleArguments .listen "0.0.0.0:9000" :=
  .joined List.mem_cons_self calls_sample

theorem eq_of_gives_sample {s : Switch} {value : String} (h : Gives sampleArguments s value) :
    s = .listen := by
  cases h with
  | joined ha h =>
    rw [List.mem_singleton.1 ha] at h
    exact (h.unique calls_sample).1
  | apart ha h =>
    have hlength := ha.length_le
    contradiction

def sampleOverrides : Overrides where
  config := some "figura.toml"
  listen := some (.v4 ⟨#v[0, 0, 0, 0]⟩ 9000)

theorem read_sample :
    CommandLine.read sampleEnvironment sampleArguments = .ok (.run sampleOverrides) := rfl

theorem plan_layers_sample : ∃ setup n,
    CommandLine.read sampleEnvironment sampleArguments = .ok (.run sampleOverrides) ∧
      plan sampleEnvironment sampleArguments sampleDisk = .ok (.serve setup) ∧
      configureOnce sampleDisk sampleOverrides = .ok setup ∧
      Config.Stored sampleDisk setup.configPath n ∧
      Layered sampleEnvironment sampleArguments sampleDisk n setup ∧
      setup.configPath = some "figura.toml" ∧
      SocketAddress.ofText? "0.0.0.0:9000".toList = some setup.config.server.listenAddress ∧
      Config.SetsUrl n setup.config.backend.baseUrl := by
  have hconfigure : (configure sampleDisk sampleOverrides).toOption.any (fun _ => true) = true := by
    decide +kernel
  obtain ⟨setup, hconfigure, -⟩ := Except.exists_of_any hconfigure
  have hplan : plan sampleEnvironment sampleArguments sampleDisk = .ok (.serve setup) := by
    rw [plan_of_run read_sample, hconfigure]
    rfl
  obtain ⟨honce, hlayers⟩ := plan_layers read_sample sampleDisk
  obtain ⟨n, hstored, hlayered⟩ := hlayers setup hplan
  rw [hplan] at honce
  obtain ⟨setup', honce, heq⟩ := Except.map_eq_ok_iff.1 honce.symm
  cases heq
  have hnot {s : Switch} (hs : s ≠ .listen) (value : String) : ¬ Gives sampleArguments s value :=
    fun h => hs (eq_of_gives_sample h)
  exact ⟨setup, n, read_sample, hplan, honce, hstored, hlayered,
    hlayered.path _ (.fallback (hnot (by decide))), hlayered.listen _ (.switch gives_sample),
    hlayered.baseUrl _ (.fallback (hnot (by decide)))⟩

end Mockup.Service
