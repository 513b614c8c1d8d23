import Mockup.Proofs.Except
import Mockup.Proofs.Model.Outcome
import Mockup.Server.Failure

/-! How the failure of a model is told. Its causes come by two ways, as a chain that is listed and
inside the messages themselves; for every failure that a call can end with, the two together lose
none of them. -/

namespace Mockup

/-! ### Failures of a call -/

namespace Model

namespace Failure

/-- The failures that a call may end with. What is nested in an exhausted budget is the failure of
an attempt, and never the image. -/
inductive Ends : Failure → Prop where
  | image (path cause : String) : Ends (.image path cause)
  | exhausted (endpoint : String) (attempts : Nat) {last : Failure} (h : last.isTransient = true) :
    Ends (.exhausted endpoint attempts last)

/-- The text of a failure, and those of what is nested in it, down to the innermost. -/
def texts : Failure → List String
  | .image path cause => [message (.image path cause), cause]
  | .exhausted endpoint attempts last => message (.exhausted endpoint attempts last) :: last.texts
  | f => [f.message]

/-- What was found out about a failure and about what is nested in it. -/
def particulars : Failure → List String
  | .image path cause => [path, cause]
  | .client reason | .connection reason | .body reason => [reason]
  | .status code text => [toString code, text]
  | .exhausted endpoint attempts last => endpoint :: toString attempts :: last.particulars

end Failure

namespace Client

variable {c : Client} {d : Disk} {r : Request} {reactions : Nat → Reaction} {f : Failure}

theorem ends_of_image (h : image d r = .error f) : f.Ends := by
  unfold image at h
  split at h
  · cases h
  · split at h
    · cases h
    · cases h
      exact .image _ _

theorem ends_of_send {bytes : Option Bytes} (h : (c.send r bytes reactions).result = .error f) :
    f.Ends := by
  obtain ⟨k, hsends⟩ := c.exists_sends r bytes reactions
  cases hheard : c.hears? (reactions k) with
  | some text =>
    rw [hsends.result_of_heard text hheard] at h
    cases h
  | none =>
    obtain ⟨last, hlast, hresult⟩ := hsends.result_of_unheard hheard
    obtain ⟨e, he, htransient⟩ := receive_of_unheard hheard
    rw [he] at hlast
    cases hlast
    rw [hresult] at h
    cases h
    exact .exhausted _ _ htransient

theorem ends_of_generate (h : (c.generate d r reactions).result = .error f) : f.Ends := by
  unfold generate at h
  cases himage : image d r with
  | error e =>
    rw [himage] at h
    cases h
    exact ends_of_image himage
  | ok bytes =>
    rw [himage] at h
    exact ends_of_send h

end Client

end Model

/-! ### Parts of a text -/

/-- The second text stands somewhere in the first. -/
def Text.Contains (text part : String) : Prop := ∃ before after, text = before ++ part ++ after

namespace Text.Contains

variable {s t u : String}

theorem refl (s : String) : Contains s s := ⟨"", "", by simp⟩

theorem trans (hs : Contains s t) (ht : Contains t u) : Contains s u := by
  obtain ⟨a, b, rfl⟩ := hs
  obtain ⟨a', b', rfl⟩ := ht
  exact ⟨a ++ a', b' ++ b, by simp only [String.append_assoc]⟩

theorem left (h : Contains s u) (t : String) : Contains (s ++ t) u := by
  obtain ⟨a, b, rfl⟩ := h
  exact ⟨a, b ++ t, by simp only [String.append_assoc]⟩

theorem right (s : String) (h : Contains t u) : Contains (s ++ t) u := by
  obtain ⟨a, b, rfl⟩ := h
  exact ⟨s ++ a, b, by simp only [String.append_assoc]⟩

end Text.Contains

/-! ### What the chain holds -/

namespace Model.Failure

open Text.Contains

variable {f : Failure} {t : String}

/-- The failure of an attempt says all that is known about it. -/
theorem contains_of_isTransient (h : f.isTransient = true) :
    (∀ t ∈ f.texts, Text.Contains f.message t) ∧ ∀ t ∈ f.particulars, Text.Contains f.message t := by
  cases f with
  | connection reason =>
    exact ⟨List.forall_mem_singleton.2 (refl _), List.forall_mem_singleton.2 (right _ (refl _))⟩
  | body reason =>
    exact ⟨List.forall_mem_singleton.2 (refl _), List.forall_mem_singleton.2 (right _ (refl _))⟩
  | status code text =>
    refine ⟨List.forall_mem_singleton.2 (refl _), List.forall_mem_cons.2 ⟨?_, ?_⟩⟩
    · exact left (left (right _ (refl _)) _) _
    · exact List.forall_mem_singleton.2 (right _ (refl _))
  | image path cause => cases h
  | client reason => cases h
  | exhausted endpoint attempts last => cases h

/-- What a call ends with is told by the chain of its causes: the failure of the image by a cause of
its own, the failure of the last attempt inside the message. -/
theorem Ends.exists_cause (h : f.Ends) (ht : t ∈ f.texts ++ f.particulars) :
    ∃ cause ∈ Server.Failure.modelCauses f, Text.Contains cause t := by
  cases h with
  | image path cause =>
    have hmessage : message (.image path cause) ∈
        Server.Failure.modelCauses (.image path cause) := List.mem_cons_self
    have hcause : cause ∈ Server.Failure.modelCauses (.image path cause) :=
      List.mem_cons_of_mem _ List.mem_cons_self
    simp only [texts, particulars, List.cons_append, List.nil_append, List.mem_cons,
      List.not_mem_nil, or_false] at ht
    obtain rfl | rfl | rfl | rfl := ht
    · exact ⟨_, hmessage, refl _⟩
    · exact ⟨_, hcause, refl _⟩
    · exact ⟨_, hmessage, right _ (refl _)⟩
    · exact ⟨_, hcause, refl _⟩
  | @exhausted endpoint attempts last hlast =>
    obtain ⟨htexts, hparticulars⟩ := contains_of_isTransient hlast
    refine ⟨message (.exhausted endpoint attempts last), List.mem_cons_self, ?_⟩
    have hnested {u : String} (hu : Text.Contains last.message u) :
        Text.Contains (message (.exhausted endpoint attempts last)) u := right _ hu
    simp only [texts, particulars, List.cons_append, List.mem_cons, List.mem_append] at ht
    obtain rfl | ht | rfl | rfl | ht := ht
    · exact refl _
    · exact hnested (htexts t ht)
    · exact left (left (right _ (refl _)) _) _
    · exact left (left (left (left (right _ (refl _)) _) _) _) _
    · exact hnested (hparticulars t ht)

end Model.Failure

/-! ### The detail -/

namespace Server

open Text

/-- Lines with consecutive numbers, a text on each. -/
inductive Numbered : Nat → List String → String → Prop where
  | nil (n : Nat) : Numbered n [] ""
  | cons {n : Nat} {cause : String} {causes : List String} {lines : String}
    (h : Numbered (n + 1) causes lines) :
    Numbered n (cause :: causes) ("\n    " ++ toString n ++ ": " ++ cause ++ lines)

theorem numbered_zipIdx (causes : List String) (n : Nat) :
    Numbered n causes (String.join ((causes.zipIdx n).map fun (cause, n) =>
      "\n    " ++ toString n ++ ": " ++ cause)) := by
  induction causes generalizing n with
  | nil => exact .nil n
  | cons cause causes ih =>
    rw [List.zipIdx_cons, List.map_cons, String.join_cons]
    exact .cons (ih (n + 1))

theorem Numbered.contains {n : Nat} {causes : List String} {lines cause : String}
    (h : Numbered n causes lines) (hc : cause ∈ causes) : Contains lines cause := by
  induction h with
  | nil => cases hc
  | cons _ ih =>
    cases hc with
    | head => exact .left (.right _ (.refl _)) _
    | tail _ hc => exact .right _ (ih hc)

/-- A detail recounts the failure of a model: behind the message come the causes with their numbers,
among them all that is nested in the failure, and then the stack. -/
def Recounts (detail message trace : String) (f : Model.Failure) : Prop :=
  ∃ lines, detail = "Error: " ++ message ++ "\n\nCaused by:" ++ lines ++
      "\n\nStack backtrace:\n" ++ trace ∧
    Numbered 0 (Failure.modelCauses f) lines ∧
    (∀ text ∈ f.texts, Contains lines text) ∧ ∀ text ∈ f.particulars, Contains lines text

theorem exists_lines (f : Model.Failure) (trace : String) :
    ∃ lines, Failure.modelDetail f trace =
        "\n\nCaused by:" ++ lines ++ "\n\nStack backtrace:\n" ++ trace ∧
      Numbered 0 (Failure.modelCauses f) lines :=
  ⟨_, rfl, numbered_zipIdx (Failure.modelCauses f) 0⟩

theorem recounts_of_ends {failure : Failure} {f : Model.Failure} {trace : String} (h : f.Ends)
    (hdetail : failure.detail trace = "Error: " ++ failure.message ++ Failure.modelDetail f trace) :
    Recounts (failure.detail trace) failure.message trace f := by
  obtain ⟨lines, hmodel, hlines⟩ := exists_lines f trace
  have hall (t : String) (ht : t ∈ f.texts ++ f.particulars) : Contains lines t := by
    obtain ⟨cause, hcause, hcontains⟩ := h.exists_cause ht
    exact (hlines.contains hcause).trans hcontains
  refine ⟨lines, ?_, hlines, fun t ht => hall t (List.mem_append_left _ ht),
    fun t ht => hall t (List.mem_append_right _ ht)⟩
  rw [hdetail, hmodel]
  simp only [String.append_assoc]

/-- No cause is lost. A call of a model ends with an image that cannot be read or with an exhausted
budget, and the detail of either recounts it for both stages, whatever its texts are. -/
theorem detail_recounts :
    (∀ (c : Model.Client) (d : Disk) (r : Model.Request) (reactions : Nat → Model.Reaction)
      (f : Model.Failure), (c.generate d r reactions).result = .error f → f.Ends) ∧
    ∀ f : Model.Failure, f.Ends → ∀ model trace,
      Recounts ((Failure.vision model f).detail trace)
        ("error with vision model '" ++ model ++ "'") trace f ∧
      Recounts ((Failure.codegen model f).detail trace)
        ("error with code model '" ++ model ++ "'") trace f :=
  ⟨fun _ _ _ _ _ h => Model.Client.ends_of_generate h,
    fun _ hf _ _ => ⟨recounts_of_ends hf rfl, recounts_of_ends hf rfl⟩⟩

def busyClient : Model.Client := ⟨"http://gpu-box/api/generate", .make 2 ⟨0⟩⟩

/-- A server that stays busy, and an image that is not there. -/
theorem detail_recounts_busy :
    (∃ f, (busyClient.generate {} { model := "llava", prompt := "" }
        fun _ => .answer 503 (some "busy")).result = .error f ∧
      f.particulars = ["http://gpu-box/api/generate", "2", "503", "busy"] ∧
      Recounts ((Failure.codegen "llava" f).detail "at main")
        ("error with code model '" ++ "llava" ++ "'") "at main" f) ∧
    ∃ f, (busyClient.generate {} { model := "llava", prompt := "", image := some "a.png" }
        fun _ => .silence).result = .error f ∧
      f.particulars = ["a.png", "No such file or directory (os error 2)"] ∧
      Recounts ((Failure.vision "llava" f).detail "at main")
        ("error with vision model '" ++ "llava" ++ "'") "at main" f := by
  obtain ⟨hends, hrecounts⟩ := detail_recounts
  have hbusy : (busyClient.generate {} { model := "llava", prompt := "" }
      fun _ => .answer 503 (some "busy")).result =
        .error (.exhausted "http://gpu-box/api/generate" 2 (.status 503 "busy")) := by
    decide +kernel
  have himage : (busyClient.generate {}
      { model := "llava", prompt := "", image := some "a.png" } fun _ => .silence).result =
        .error (.image "a.png" "No such file or directory (os error 2)") := by
    decide +kernel
  exact ⟨⟨_, hbusy, by decide, (hrecounts _ (hends _ _ _ _ _ hbusy) "llava" "at main").2⟩,
    _, himage, by decide, (hrecounts _ (hends _ _ _ _ _ himage) "llava" "at main").1⟩

/-- An image inside an exhausted budget would lose its cause. No call ends so. -/
example : ¬ "gone".toList <:+: ((Failure.vision "llava"
    (.exhausted "http://gpu-box" 1 (.image "a.png" "gone"))).detail "").toList := by
  decide +kernel

end Server

end Mockup
