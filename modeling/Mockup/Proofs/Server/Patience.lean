import Mockup.Proofs.Server.Generation
import Mockup.Proofs.Span.Sum

/-! How long the service waits. Both spans of time go from the text of the configuration to the
client of the model server unchanged, or the configuration is refused. -/

namespace Mockup

namespace Model.Client

variable {c : Client} {d : Span}

/-- A call pauses for as long as its policy says, or not at all. -/
theorem eq_of_mem_pauses_send (h : c.policy.delay = d) (r : Request) (image : Option Bytes)
    (reactions : Nat → Reaction) : ∀ p ∈ (c.send r image reactions).pauses, p = d := by
  intro p hp
  obtain ⟨k, hsends⟩ := c.exists_sends r image reactions
  rw [hsends.pauses_eq, h] at hp
  exact List.eq_of_mem_replicate hp

theorem eq_of_mem_pauses_generate (h : c.policy.delay = d) (disk : Disk) (r : Request)
    (reactions : Nat → Reaction) : ∀ p ∈ (c.generate disk r reactions).pauses, p = d := by
  unfold generate
  cases image disk r with
  | error e => exact List.forall_mem_nil _
  | ok bytes => exact eq_of_mem_pauses_send h r bytes reactions

end Model.Client

/-! ### Texts of spans -/

namespace Config

open Mockup.Span

variable {ts : List (Nat × Span.Unit)} {text : String}

theorem duration_of_le (h : Writes ts text.toList) (hle : total ts ≤ 2 ^ 64 - 1) :
    duration text = .ok ⟨total ts⟩ := by
  have hlt : total ts < Number.twoTo 64 := Nat.lt_of_le_pred (by decide) hle
  rw [duration, (ofText_of_writes h).1 hlt]

theorem duration_of_gt (h : Writes ts text.toList) (hgt : 2 ^ 64 - 1 < total ts) :
    ∃ flaw, duration text = .error flaw := by
  have hle : Number.twoTo 64 ≤ total ts := Nat.le_of_pred_lt hgt
  obtain ⟨e, he⟩ := (ofText_of_writes h).2 hle
  exact ⟨_, by rw [duration, he]⟩

end Config

/-! ### The service -/

namespace Server

open Mockup.Span

variable {c : Config} {s : Server}

/-- The service waits for so long wherever it waits: between two attempts of a call of the model
server, and so in the course of every answer. -/
structure PausesFor (s : Server) (d : Span) : Prop where
  call : ∀ disk r reactions, ∀ p ∈ (s.workshop.client.generate disk r reactions).pauses, p = d
  answer : ∀ o disk r, ∀ p ∈ (s.answer o disk r).pauses, p = d

theorem pausesFor_of_delay {d : Span} (h : s.workshop.client.policy.delay = d) :
    s.PausesFor d where
  call disk r reactions := Model.Client.eq_of_mem_pauses_generate h disk r reactions
  answer o disk r := by
    refine (madeOf_answer s o disk r).forall_pauses fun call hcall => ?_
    cases hcall with
    | vision path image reactions => exact Model.Client.eq_of_mem_pauses_send h _ _ _
    | codegen description reactions => exact Model.Client.eq_of_mem_pauses_send h _ _ _

/-- The spans of a service are those of its configuration. -/
theorem spans_of_build (h : build c = .ok s) :
    c.backend.retry.span = .ok s.workshop.client.policy.delay ∧
      c.backend.timeoutSpan = .ok s.timeout := by
  obtain ⟨connection, hclient, h⟩ := Except.bind_eq_ok_iff.1 h
  obtain ⟨health, -, h⟩ := Except.bind_eq_ok_iff.1 h
  obtain ⟨cors, -, h⟩ := Except.bind_eq_ok_iff.1 h
  cases h
  obtain ⟨delay, hdelay, hclient⟩ := Except.bind_eq_ok_iff.1 (Except.mapError_eq_ok_iff.1 hclient)
  obtain ⟨timeout, htimeout, hclient⟩ := Except.bind_eq_ok_iff.1 hclient
  cases hclient
  exact ⟨hdelay, htimeout⟩

/-- A sum of times in a configuration is waited for to the nanosecond, if 64 bits of nanoseconds
hold it: between two attempts if it is the delay, and for an answer of the model server if it is the
limit. A greater sum makes the configuration unusable. -/
theorem waits_as_written (c : Config) {ts : List (Nat × Span.Unit)} {text : String}
    (h : Writes ts text.toList) :
    (c.backend.retry.delay = text →
      (total ts ≤ 2 ^ 64 - 1 → c.backend.retry.span = .ok ⟨total ts⟩ ∧
        ∀ s, build c = .ok s → s.PausesFor ⟨total ts⟩) ∧
      (2 ^ 64 - 1 < total ts → ∃ flaw, c.validate = .error flaw)) ∧
    (c.backend.timeout = some text →
      (total ts ≤ 2 ^ 64 - 1 → c.backend.timeoutSpan = .ok (some ⟨total ts⟩) ∧
        ∀ s, build c = .ok s → s.timeout = some ⟨total ts⟩) ∧
      (2 ^ 64 - 1 < total ts → ∃ flaw, c.validate = .error flaw)) := by
  refine ⟨fun hdelay => ?_, fun htimeout => ?_⟩
  · have hspan : c.backend.retry.span = Config.duration text := congrArg Config.duration hdelay
    refine ⟨fun hle => ?_, fun hgt => Config.exists_flaw fun hv => ?_⟩
    · rw [Config.duration_of_le h hle] at hspan
      refine ⟨hspan, fun s hs => pausesFor_of_delay ?_⟩
      exact Except.ok.inj ((spans_of_build hs).1.symm.trans hspan)
    · obtain ⟨flaw, hflaw⟩ := Config.duration_of_gt h hgt
      obtain ⟨delay, hok⟩ := ((Config.validate_eq_ok_iff c).1 hv).exists_span
      rw [hspan, hflaw] at hok
      cases hok
  · have hspan : c.backend.timeoutSpan = (Config.duration text).map some := by
      rw [Config.Backend.timeoutSpan, htimeout]
    refine ⟨fun hle => ?_, fun hgt => Config.exists_flaw fun hv => ?_⟩
    · rw [Config.duration_of_le h hle] at hspan
      refine ⟨hspan, fun s hs => ?_⟩
      exact Except.ok.inj ((spans_of_build hs).2.symm.trans hspan)
    · obtain ⟨flaw, hflaw⟩ := Config.duration_of_gt h hgt
      obtain ⟨timeout, hok⟩ := ((Config.validate_eq_ok_iff c).1 hv).exists_timeoutSpan
      rw [hspan, hflaw] at hok
      cases hok

/-- A minute and a half. -/
def patientText : String := "1M30 s"

theorem writes_patientText :
    Writes [(1, .minute), (30, .second)] patientText.toList := by
  have hminute : WritesTerm 1 .minute ([] ++ ['1'] ++ [] ++ ['M'] ++ []) :=
    .parts (List.forall_mem_nil _) ⟨nofun, List.all_eq_true.1 (by decide)⟩ rfl
      (List.forall_mem_nil _) (Unit.isWord_iff.2 (by decide +kernel)) (List.forall_mem_nil _)
  have hsecond : WritesTerm 30 .second ([] ++ ['3', '0'] ++ [' '] ++ ['s'] ++ []) :=
    .parts (List.forall_mem_nil _) ⟨nofun, List.all_eq_true.1 (by decide)⟩ rfl
      (List.all_eq_true.1 (by decide)) (Unit.isWord_iff.2 (by decide +kernel))
      (List.forall_mem_nil _)
  exact .adjoined hminute (.one hsecond)

/-- A nanosecond more than 64 bits hold. -/
def endlessText : String := "18446744073709551615ns+1ns"

theorem writes_endlessText :
    Writes [(2 ^ 64 - 1, .nanosecond), (1, .nanosecond)] endlessText.toList := by
  have hmost : WritesTerm (2 ^ 64 - 1) .nanosecond
      ([] ++ "18446744073709551615".toList ++ [] ++ ['n', 's'] ++ []) :=
    .parts (List.forall_mem_nil _) ⟨by decide, List.all_eq_true.1 (by decide)⟩
      (by decide +kernel) (List.forall_mem_nil _) (Unit.isWord_iff.2 (by decide +kernel))
      (List.forall_mem_nil _)
  have hone : WritesTerm 1 .nanosecond ([] ++ ['1'] ++ [] ++ ['n', 's'] ++ []) :=
    .parts (List.forall_mem_nil _) ⟨nofun, List.all_eq_true.1 (by decide)⟩ rfl
      (List.forall_mem_nil _) (Unit.isWord_iff.2 (by decide +kernel)) (List.forall_mem_nil _)
  exact .plus hmost (.one hone)

def patientConfig (text : String) : Config where
  backend := { timeout := some text, retry := { delay := text } }

theorem waits_patientText :
    (∃ s, build (patientConfig patientText) = .ok s ∧ s.PausesFor (.ofSeconds 90) ∧
      s.timeout = some (.ofSeconds 90) ∧
      (s.workshop.client.generate {} { model := "m", prompt := "" } fun _ => .silence).pauses =
        [.ofSeconds 90, .ofSeconds 90]) ∧
    ∃ flaw, (patientConfig endlessText).validate = .error flaw := by
  obtain ⟨hdelay, htimeout⟩ := waits_as_written (patientConfig patientText) writes_patientText
  obtain ⟨hendless, -⟩ := waits_as_written (patientConfig endlessText) writes_endlessText
  have hbuild : (build (patientConfig patientText)).toOption.any (fun s =>
      (s.workshop.client.generate {} { model := "m", prompt := "" } fun _ => .silence).pauses =
        [.ofSeconds 90, .ofSeconds 90]) = true := by
    decide +kernel
  obtain ⟨s, hb, hpauses⟩ := Except.exists_of_any hbuild
  have hle : total [(1, .minute), (30, .second)] ≤ 2 ^ 64 - 1 := by decide
  exact ⟨⟨s, hb, ((hdelay rfl).1 hle).2 s hb, ((htimeout rfl).1 hle).2 s hb,
    of_decide_eq_true hpauses⟩, (hendless rfl).2 (by decide)⟩

end Server

end Mockup
