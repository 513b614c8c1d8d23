import Mockup.Proofs.CommandLine.Precedence
import Mockup.Proofs.Config.Decoding
import Mockup.Proofs.Model.Endpoint
import Mockup.Proofs.Server.Generation
import Mockup.Service

/-! From a command line to the endpoint. The base address of a setup was read from a text, so it is
a URL as URLs are kept, and what is posted under it goes to a URL with its scheme and its authority.
-/

namespace Mockup.Service

open Model Network

variable {environment : String → Option String} {arguments : List String} {d : Disk} {setup : Setup}

theorem configure_isRead {o : CommandLine.Overrides} (ho : o.AreRead)
    (h : configure d o = .ok setup) : setup.config.backend.IsRead := by
  obtain ⟨c, hload, h⟩ := Except.bind_eq_ok_iff.1 h
  obtain ⟨_, -, h⟩ := Except.bind_eq_ok_iff.1 h
  cases h
  have hloaded : c.backend.IsRead := Config.loadOrDefault_isRead (Except.mapError_eq_ok_iff.1 hload)
  change ∃ s, Url.ofText s = .ok (o.baseUrl.getD c.backend.baseUrl)
  cases hbase : o.baseUrl with
  | none => exact hloaded
  | some u => exact ho.baseUrl u hbase

theorem plan_isRead (h : plan environment arguments d = .ok (.serve setup)) :
    setup.config.backend.IsRead := by
  obtain ⟨command, hcommand, h⟩ := Except.bind_eq_ok_iff.1 h
  cases command with
  | help => cases h
  | run o =>
    obtain ⟨setup', hsetup, h⟩ := Except.bind_eq_ok_iff.1 h
    cases h
    exact configure_isRead (CommandLine.read_areRead (Except.mapError_eq_ok_iff.1 hcommand)) hsetup

/-- The base address of a setup is a URL as it is kept. -/
theorem kept_of_plan (h : plan environment arguments d = .ok (.serve setup))
    (hweb : IsWeb setup.config.backend.baseUrl.scheme) : setup.config.backend.baseUrl.Kept := by
  obtain ⟨s, hs⟩ := plan_isRead h
  exact Url.kept_of_ofText hs hweb.standard

/-- Whatever base address the command line, the environment or the configuration gives, the endpoint
under it is a URL with its scheme, user name, password, host and port, which every attempt posts to,
and the path of generation ends that URL. It ends the path of that URL exactly if the base address
has no query and no fragment. -/
theorem posts_extend_base (hplan : plan environment arguments d = .ok (.serve setup))
    (hweb : IsWeb setup.config.backend.baseUrl.scheme) :
    let base := setup.config.backend.baseUrl
    ∃ v, Extends base v ∧
      (∀ policy, let c := Client.make base policy
        Url.ofText c.endpoint.toList = .ok v ∧
          c.target? = if Client.isPostable v then some v else none) ∧
      (∀ s, Server.build setup.config = .ok s → ∀ o d r, ∀ p ∈ (s.answer o d r).posts,
        Url.ofText p.url.toList = .ok v) ∧
      (v.path.text = trimSlashes base.path.text ++ generatePath ↔
        base.query = none ∧ base.fragment = none) := by
  obtain ⟨v, hv, htarget⟩ := exists_target (kept_of_plan hplan hweb)
  refine ⟨v, hv, htarget, fun s hs o d r p hp => ?_, hv.path_text_iff⟩
  obtain ⟨-, delay, hworkshop⟩ := Server.build_eq_ok hs
  rw [Server.url_of_mem_answer hp, hworkshop]
  exact (htarget _).1

/-- A setup that the program is asked for on the command line alone. -/
def planned (arguments : List String) : Option Setup :=
  match plan (fun _ => none) arguments {} with
  | .ok (.serve setup) => some setup
  | _ => none

theorem plan_of_planned (h : planned arguments = some setup) :
    plan (fun _ => none) arguments {} = .ok (.serve setup) := by
  unfold planned at h
  split at h
  · rename_i heq
    cases h
    exact heq
  · cases h

/-- A base address with everything but a query and a fragment, and two slashes at its end. -/
def fullArguments : List String := ["--ollama-url", "https://u:p@gpu-box:8443/ollama//"]

theorem fullArguments_extend_base :
    ∃ setup v, plan (fun _ => none) fullArguments {} = .ok (.serve setup) ∧
      IsWeb setup.config.backend.baseUrl.scheme ∧ Extends setup.config.backend.baseUrl v ∧
      v.path.text = "/ollama/api/generate".toList := by
  have hread : (planned fullArguments).any (fun setup =>
      let base := setup.config.backend.baseUrl
      IsWeb base.scheme ∧ base.path.text = "/ollama//".toList ∧ base.query = none ∧
        base.fragment = none) = true := by
    decide +kernel
  obtain ⟨setup, hsetup, hall⟩ := (Option.any_eq_true _ _).1 hread
  obtain ⟨hweb, hpath, hparts⟩ := of_decide_eq_true hall
  have hplan := plan_of_planned hsetup
  obtain ⟨v, hv, -, -, htext⟩ := posts_extend_base hplan hweb
  refine ⟨setup, v, hplan, hweb, hv, ?_⟩
  rw [htext.2 hparts, hpath]
  decide

/-- A base address with a query. -/
def queryArguments : List String := ["--ollama-url", "http://gpu-box/?token=x"]

/-- With a query, the path of generation is no path: posts go to the root. -/
theorem queryArguments_miss_path :
    ∃ setup v, plan (fun _ => none) queryArguments {} = .ok (.serve setup) ∧
      IsWeb setup.config.backend.baseUrl.scheme ∧
      (Client.make setup.config.backend.baseUrl .standard).target? = some v ∧
      v.path.text = "/".toList ∧ v.query = some "token=x/api/generate".toList ∧
      v.path.text ≠ trimSlashes setup.config.backend.baseUrl.path.text ++ generatePath := by
  have hread : (planned queryArguments).any (fun setup =>
      let base := setup.config.backend.baseUrl
      IsWeb base.scheme ∧ (Client.make base .standard).target?.any fun v =>
        v.path.text = "/".toList ∧ v.query = some "token=x/api/generate".toList ∧
          v.path.text ≠ trimSlashes base.path.text ++ generatePath) = true := by
    decide +kernel
  obtain ⟨setup, hsetup, hall⟩ := (Option.any_eq_true _ _).1 hread
  obtain ⟨hweb, hposts⟩ := of_decide_eq_true hall
  obtain ⟨v, htarget, hv⟩ := (Option.any_eq_true _ _).1 hposts
  exact ⟨setup, v, plan_of_planned hsetup, hweb, htarget, of_decide_eq_true hv⟩

end Mockup.Service
