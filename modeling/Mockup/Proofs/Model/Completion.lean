import Mockup.Model.Completion
import Mockup.Proofs.Json.Reading

/-! The completion in an answer. A body that is the text of a JSON object whose last member response
is a string stands for that string, however the string is written; every other body stands for
itself. -/

namespace Mockup.Model

open Json

/-! ### The last member of a name -/

/-- Of the members of that name the last has the value. -/
def IsLast (name : String) (ms : List (String × Json)) (v : Json) : Prop :=
  ∃ before after, ms = before ++ (name, v) :: after ∧ ∀ m ∈ after, m.1 ≠ name

theorem member?_eq_some_iff {name : String} {ms : List (String × Json)} {v : Json} :
    (Json.object ms).member? name = some v ↔ IsLast name ms v := by
  simp only [Json.member?, Option.map_eq_some_iff, List.find?_eq_some_iff_append, beq_iff_eq,
    Bool.not_eq_true', beq_eq_false_iff_ne]
  constructor
  · rintro ⟨⟨_, _⟩, ⟨rfl, after, before, hms, hafter⟩, rfl⟩
    refine ⟨before.reverse, after.reverse, ?_, by simpa using hafter⟩
    rw [List.reverse_eq_iff] at hms
    simpa using hms
  · rintro ⟨before, after, rfl, hafter⟩
    exact ⟨(name, v), ⟨rfl, after.reverse, before.reverse, by simp, by simpa using hafter⟩, rfl⟩

/-- The body is a JSON object, and the last of its members response is that text. -/
def Responds (body text : String) : Prop :=
  ∃ ms, IsTextOf body.toList (.object ms) ∧ IsLast "response" ms (.string text)

theorem completionText_of_responds {body text : String} (h : Responds body text) :
    completionText body = text := by
  obtain ⟨ms, htext, hlast⟩ := h
  unfold completionText
  rw [ofText?_eq_some_iff.2 htext, Option.bind_some, member?_eq_some_iff.2 hlast]

theorem completionText_of_not_responds {body : String} (h : ∀ text, ¬Responds body text) :
    completionText body = body := by
  unfold completionText
  split
  · rename_i text hmember
    obtain ⟨v, hread, hmember⟩ := Option.bind_eq_some_iff.1 hmember
    cases v with
    | object ms =>
      exact absurd ⟨ms, ofText?_eq_some_iff.1 hread, member?_eq_some_iff.1 hmember⟩ (h text)
    | _ => cases hmember
  · rfl

/-! ### Objects with a response -/

/-- The text of an object in which the value of one member is written as `w`. -/
def objectText (before : List (String × Json)) (name : String) (w : List Char)
    (after : List (String × Json)) : List Char :=
  '\x7b' :: (before.flatMap (fun m => writeString m.1 ++ ':' :: (writeChars m.2 ++ [','])) ++
    (writeString name ++ ':' :: (w ++ writeMembers after)))

/-- The value has a text, and may stand in an object. -/
def IsMemberValue (v : Json) : Prop := depth v < maxOpen ∧ ∃ s, IsTextOf s v

theorem IsMemberValue.writable {v : Json} (h : IsMemberValue v) : Writable (spelling v) := by
  obtain ⟨-, s, -, hlaid⟩ := h
  exact hlaid.writable

theorem isMemberValue_string (text : String) : IsMemberValue (.string text) := by
  have hroom : 0 < maxOpen := by decide
  refine ⟨hroom, _, Nat.zero_le _, Laid.adjoin (written_string text) (.nil (b := []) ?_)⟩
  simp

theorem writable_spellingMembers {ms : List (String × Json)}
    (h : ∀ m ∈ ms, IsMemberValue m.2) : Writable (spellingMembers ms) := by
  induction ms with
  | nil => exact writable_cons .closeBrace writable_nil
  | cons m ms ih =>
    obtain ⟨hm, hms⟩ := List.forall_mem_cons.1 h
    exact writable_cons .comma (writable_member m.1 hm.writable (ih hms))

theorem laid_spelledMembers {ms : List (String × Json)} (h : ∀ m ∈ ms, IsMemberValue m.2)
    {ts : List Token} {s : List Char} (hs : Laid ts s) : Laid (spelledMembers ms ++ ts)
      (ms.flatMap (fun m => writeString m.1 ++ ':' :: (writeChars m.2 ++ [','])) ++ s) := by
  induction ms with
  | nil => exact hs
  | cons m ms ih =>
    obtain ⟨hm, hms⟩ := List.forall_mem_cons.1 h
    have hrest := laid_name m.1 (laid_value (.adjoin .comma (ih hms)) m.2 hm.writable)
    simpa [spelledMembers] using hrest

variable {before after : List (String × Json)} {text : String}

theorem depth_object_le {ms : List (String × Json)} (h : ∀ m ∈ ms, IsMemberValue m.2) :
    depth (.object ms) ≤ maxOpen :=
  Nat.add_le_of_le_sub (by decide)
    (depthMembers_le_iff.2 fun m hm => Nat.le_sub_one_of_lt (h m hm).1)

theorem isTextOf_objectText (name : String) {w : List Char}
    (hbefore : ∀ m ∈ before, IsMemberValue m.2) (hafter : ∀ m ∈ after, IsMemberValue m.2)
    (hw : Quoted text.toList w) :
    IsTextOf (objectText before name ('"' :: (w ++ ['"'])) after)
      (.object (before ++ (name, .string text) :: after)) := by
  refine ⟨depth_object_le ?_, ?_⟩
  · intro m hm
    rw [List.mem_append, List.mem_cons] at hm
    rcases hm with hm | rfl | hm
    · exact hbefore m hm
    · exact isMemberValue_string text
    · exact hafter m hm
  · have hmembers :=
      laid_members (.nil (b := []) (by simp)) after (writable_spellingMembers hafter)
    rw [List.append_nil, List.append_nil] at hmembers
    rw [spelling_object]
    exact .adjoin .openBrace
      (laid_spelledMembers hbefore (laid_name name (.adjoin (.text hw) hmembers)))

/-! ### What is read -/

/-- What is read from a body is the text of its last member response, or the body. -/
structure ReadsCompletion (read : String → String) : Prop where
  /-- The body may have any layout, and the text and the names any escapes. -/
  response {body text : String} (h : Responds body text) : read body = text
  /-- The body is no JSON, or no object, or its last member response is missing or no string. -/
  otherwise {body : String} (h : ∀ text, ¬Responds body text) : read body = body
  /-- Every text is heard, in every way to write it between quotes. -/
  heard {before after : List (String × Json)} {text : String} {w : List Char}
    (hbefore : ∀ m ∈ before, IsMemberValue m.2)
    (hafter : ∀ m ∈ after, m.1 ≠ "response" ∧ IsMemberValue m.2) (hw : Quoted text.toList w) :
    read (.ofList (objectText before "response" ('"' :: (w ++ ['"'])) after)) = text
  /-- Every text is heard from the writer of JSON. -/
  written {before after : List (String × Json)} {text : String}
    (hbefore : ∀ m ∈ before, IsMemberValue m.2)
    (hafter : ∀ m ∈ after, m.1 ≠ "response" ∧ IsMemberValue m.2) :
    read (Json.object (before ++ ("response", .string text) :: after)).write = text

theorem readsCompletion_completionText : ReadsCompletion completionText where
  response := completionText_of_responds
  otherwise := completionText_of_not_responds
  heard {before after text w} hbefore hafter hw := by
    refine completionText_of_responds ⟨_, ?_, before, after, rfl, fun m hm => (hafter m hm).1⟩
    rw [String.toList_ofList]
    exact isTextOf_objectText "response" hbefore (fun m hm => (hafter m hm).2) hw
  written {before after text} hbefore hafter := by
    refine completionText_of_responds ⟨_, ?_, before, after, rfl, fun m hm => (hafter m hm).1⟩
    have htext := isTextOf_objectText "response" hbefore (fun m hm => (hafter m hm).2)
      (quoted_escape text.toList)
    exact isTextOf_write htext.1 htext.2.writable

-- The first member of the name does not count, and a letter may be written by its number.
example : completionText "\x7b\"response\": 1, \"respons\\u0065\": \"a\\u0062\" \x7d" = "ab" := by
  decide +kernel

end Mockup.Model
