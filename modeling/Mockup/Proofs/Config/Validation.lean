import Mockup.Config
import Mockup.Proofs.Except
import Mockup.Proofs.Number.Value

/-! What makes a configuration usable. -/

namespace Mockup.Config

open Number

/-- A stage can be asked: its model has a name that shows, and its temperature is from zero to two. -/
structure Stage.IsUsable (s : Stage) : Prop where
  model : ∃ c ∈ s.model.toList, Text.isBlank c = false
  temperature : ∃ x ∈ s.temperature.toRat?, 0 ≤ x ∧ x ≤ 2

structure Usable (c : Config) : Prop where
  attempts : 1 ≤ c.backend.retry.maxAttempts.toNat
  delay : ∃ span, Span.ofText c.backend.retry.delay = .ok span
  timeout : ∀ text ∈ c.backend.timeout, ∃ span, Span.ofText text = .ok span
  vision : c.pipeline.vision.IsUsable
  codegen : c.pipeline.codegen.IsUsable
  uploadDir : c.server.uploadDir ≠ ""
  bodyLimit : 0 < c.server.bodyLimit

/-! ### Checks -/

theorem require_eq_ok_iff {ok : Bool} {flaw : Flaw} : require ok flaw = .ok () ↔ ok = true := by
  cases ok with
  | true => exact iff_of_true rfl rfl
  | false => exact iff_of_false nofun nofun

theorem then_eq_ok_iff {x y : Except Flaw Unit} :
    (x >>= fun _ => y) = .ok () ↔ x = .ok () ∧ y = .ok () := by
  rw [Except.bind_eq_ok_iff]
  exact ⟨fun ⟨_, hx, hy⟩ => ⟨hx, hy⟩, fun ⟨hx, hy⟩ => ⟨(), hx, hy⟩⟩

theorem duration_isOk_iff (text : String) :
    (∃ span, duration text = .ok span) ↔ ∃ span, Span.ofText text = .ok span := by
  unfold duration
  cases Span.ofText text with
  | ok span => exact iff_of_true ⟨span, rfl⟩ ⟨span, rfl⟩
  | error e => exact iff_of_false nofun nofun

theorem timeoutSpan_isOk_iff (b : Backend) :
    (∃ timeout, b.timeoutSpan = .ok timeout) ↔
      ∀ text ∈ b.timeout, ∃ span, Span.ofText text = .ok span := by
  unfold Backend.timeoutSpan
  cases b.timeout with
  | none => exact iff_of_true ⟨none, rfl⟩ nofun
  | some text =>
    simp only [Except.map_eq_ok_iff, Option.mem_some_iff, forall_eq', ← duration_isOk_iff]
    exact ⟨fun ⟨_, span, h, _⟩ => ⟨span, h⟩, fun ⟨span, h⟩ => ⟨some span, span, h, rfl⟩⟩

theorem Backend.validate_eq_ok_iff (b : Backend) :
    b.validate = .ok () ↔ 1 ≤ b.retry.maxAttempts.toNat ∧
      (∃ span, Span.ofText b.retry.delay = .ok span) ∧
        ∀ text ∈ b.timeout, ∃ span, Span.ofText text = .ok span := by
  have hattempts : (b.retry.maxAttempts != 0) = true ↔ 1 ≤ b.retry.maxAttempts.toNat := by
    rw [bne_iff_ne, ← UInt32.pos_iff_ne_zero, UInt32.lt_iff_toNat_lt]
    exact Iff.rfl
  rw [← timeoutSpan_isOk_iff, ← duration_isOk_iff, ← hattempts]
  unfold Backend.validate
  rw [then_eq_ok_iff, require_eq_ok_iff]
  refine and_congr_right fun _ => ?_
  simp only [Except.bind_eq_ok_iff]
  exact ⟨fun ⟨span, hspan, timeout, h, _⟩ => ⟨⟨span, hspan⟩, timeout, h⟩,
    fun ⟨⟨span, hspan⟩, timeout, h⟩ => ⟨span, hspan, timeout, h, rfl⟩⟩

theorem Stage.validate_eq_ok_iff (name : String) (s : Stage) :
    s.validate name = .ok () ↔ s.IsUsable := by
  have hmodel : Text.hasContent s.model.toList = true ↔
      ∃ c ∈ s.model.toList, Text.isBlank c = false := by
    simp [Text.hasContent]
  unfold Stage.validate
  rw [then_eq_ok_iff, require_eq_ok_iff, require_eq_ok_iff, hmodel, Floating.isBetweenZeroAnd_iff]
  exact ⟨fun ⟨hm, ht⟩ => ⟨hm, ht⟩, fun ⟨hm, ht⟩ => ⟨hm, ht⟩⟩

theorem Server.validate_eq_ok_iff (s : Server) :
    s.validate = .ok () ↔ s.uploadDir ≠ "" ∧ 0 < s.bodyLimit := by
  unfold Server.validate
  rw [then_eq_ok_iff, require_eq_ok_iff, require_eq_ok_iff, Bool.not_eq_true',
    bne_iff_ne, Nat.pos_iff_ne_zero]
  simp

/-- Validation finds nothing wrong with a usable configuration, and with no other. -/
theorem validate_eq_ok_iff (c : Config) : c.validate = .ok () ↔ c.Usable := by
  unfold validate
  rw [then_eq_ok_iff, then_eq_ok_iff, then_eq_ok_iff, Backend.validate_eq_ok_iff,
    Stage.validate_eq_ok_iff, Stage.validate_eq_ok_iff, Server.validate_eq_ok_iff]
  constructor
  · rintro ⟨⟨hattempts, hdelay, htimeout⟩, hvision, hcodegen, hdir, hlimit⟩
    exact ⟨hattempts, hdelay, htimeout, hvision, hcodegen, hdir, hlimit⟩
  · rintro ⟨hattempts, hdelay, htimeout, hvision, hcodegen, hdir, hlimit⟩
    exact ⟨⟨hattempts, hdelay, htimeout⟩, hvision, hcodegen, hdir, hlimit⟩

/-- What is not found usable is refused with a flaw. -/
theorem exists_flaw {c : Config} (h : c.validate ≠ .ok ()) : ∃ flaw, c.validate = .error flaw := by
  cases hv : c.validate with
  | ok u => exact absurd hv h
  | error flaw => exact ⟨flaw, rfl⟩

namespace Usable

variable {c : Config}

/-- Both spans of a usable configuration are understood. -/
theorem exists_span (h : c.Usable) : ∃ delay, c.backend.retry.span = .ok delay :=
  (duration_isOk_iff _).2 h.delay

theorem exists_timeoutSpan (h : c.Usable) : ∃ timeout, c.backend.timeoutSpan = .ok timeout :=
  (timeoutSpan_isOk_iff _).2 h.timeout

end Usable

end Mockup.Config
