import Mockup.Proofs.Config.Decoding
import Mockup.Proofs.Document

/-! Lists of what is allowed. A star stands for everything, alone or in a list. The scan of a list is
over at its first star, whatever follows it, and at the first item that is no text; the one that
comes first decides. -/

namespace Mockup.Config

variable {d : Dialect} {n m : Node} {ns before after : List Node} {s : String} {ss : List String}
  {x : Except Fault Allowed}

/-! ### Items -/

def IsStar (n : Node) : Prop := n.value = .string "*"

/-- The items are these texts, and none of them is a star. -/
def AreTexts (ns : List Node) (ss : List String) : Prop :=
  ns.map (·.value) = ss.map .string ∧ "*" ∉ ss

theorem areTexts_cons (hn : n.value = .string s) (hs : s ≠ "*") (h : AreTexts ns ss) :
    AreTexts (n :: ns) (s :: ss) := by
  refine ⟨by rw [List.map_cons, List.map_cons, hn, h.1], ?_⟩
  rw [List.mem_cons, not_or]
  exact ⟨hs.symm, h.2⟩

theorem exists_of_areTexts_cons (h : AreTexts (n :: ns) ss) :
    ∃ s ss', ss = s :: ss' ∧ n.value = .string s ∧ s ≠ "*" ∧ AreTexts ns ss' := by
  obtain ⟨hvalues, hstar⟩ := h
  cases ss with
  | nil => cases hvalues
  | cons s ss =>
    rw [List.map_cons, List.map_cons, List.cons.injEq] at hvalues
    rw [List.mem_cons, not_or] at hstar
    exact ⟨s, ss, rfl, hvalues.1, Ne.symm hstar.1, hvalues.2, hstar.2⟩

theorem exists_areTexts_iff : (∃ ss, AreTexts ns ss) ↔
    ∀ k ∈ ns, k.value.isString = true ∧ ¬ IsStar k := by
  induction ns with
  | nil => exact ⟨fun _ => List.forall_mem_nil _, fun _ => ⟨[], rfl, List.not_mem_nil⟩⟩
  | cons n ns ih =>
    rw [List.forall_mem_cons, ← ih]
    constructor
    · rintro ⟨ss, h⟩
      obtain ⟨s, ss', rfl, hn, hs, hns⟩ := exists_of_areTexts_cons h
      refine ⟨⟨by rw [hn]; rfl, fun hstar => hs ?_⟩, ss', hns⟩
      exact Value.string.inj (hn.symm.trans hstar)
    · rintro ⟨⟨htext, hstar⟩, ss, hns⟩
      obtain ⟨s, hs⟩ := Value.exists_of_isString htext
      refine ⟨s :: ss, areTexts_cons hs ?_ hns⟩
      rintro rfl
      exact hstar hs

/-! ### The scan -/

theorem scanAllowed_text (hn : n.value = .string s) (hs : s ≠ "*") :
    scanAllowed d (n :: ns) = (scanAllowed d ns).map fun x => (s :: x.1, x.2) := by
  simp only [scanAllowed, Decoder.text, hn]
  change (if s = "*" then _ else _) = _
  rw [if_neg hs]
  cases scanAllowed d ns <;> rfl

theorem scanAllowed_star (hn : IsStar n) : scanAllowed d (n :: ns) = .ok ([], some ns) := by
  rw [IsStar] at hn
  simp only [scanAllowed, Decoder.text, hn]
  rfl

/-- What is wrong where a text is missing. -/
def noText (n : Node) : Fault := ⟨n.extent, .mistyped n.value "a string"⟩

theorem scanAllowed_misfit (hn : n.value.isString = false) :
    scanAllowed d (n :: ns) = .error (noText n) := by
  obtain ⟨e, v⟩ := n
  cases v <;> first | rfl | cases hn

theorem scanAllowed_append (h : AreTexts before ss) (rest : List Node) :
    scanAllowed d (before ++ rest) = (scanAllowed d rest).map fun x => (ss ++ x.1, x.2) := by
  induction before generalizing ss with
  | nil =>
    obtain rfl : ss = [] := by simpa using h.1.symm
    cases hrest : scanAllowed d rest <;> simp [hrest, Except.map]
  | cons n before ih =>
    obtain ⟨s, ss, rfl, hn, hs, hbefore⟩ := exists_of_areTexts_cons h
    rw [List.cons_append, scanAllowed_text hn hs, ih hbefore]
    cases scanAllowed d rest <;> rfl

/-- What decides about a list: that it has texts only, or its first star, or its first item that is
no text. -/
inductive Decided : List Node → Except Fault Allowed → Prop where
  | texts {ns : List Node} {ss : List String} (h : AreTexts ns ss) : Decided ns (.ok (.only ss))
  | star {before after : List Node} {m : Node} {ss : List String} (h : AreTexts before ss)
    (hm : IsStar m) : Decided (before ++ m :: after) (.ok .any)
  | misfit {before after : List Node} {m : Node} {ss : List String} (h : AreTexts before ss)
    (hm : m.value.isString = false) : Decided (before ++ m :: after) (.error (noText m))

namespace Decided

theorem cons (hn : n.value = .string s) (hs : s ≠ "*") (h : Decided ns x) :
    ∃ y, Decided (n :: ns) y := by
  cases h with
  | texts h => exact ⟨_, .texts (areTexts_cons hn hs h)⟩
  | star h hm => exact ⟨_, .star (areTexts_cons hn hs h) hm⟩
  | misfit h hm => exact ⟨_, .misfit (areTexts_cons hn hs h) hm⟩

theorem exists_of (ns : List Node) : ∃ x, Decided ns x := by
  induction ns with
  | nil => exact ⟨_, .texts ⟨rfl, List.not_mem_nil⟩⟩
  | cons n ns ih =>
    have hnone : AreTexts [] [] := ⟨rfl, List.not_mem_nil⟩
    cases htext : n.value.isString with
    | false => exact ⟨_, @misfit [] ns n [] hnone htext⟩
    | true =>
      obtain ⟨s, hs⟩ := Value.exists_of_isString htext
      by_cases hstar : s = "*"
      · subst hstar
        exact ⟨_, @star [] ns n [] hnone hs⟩
      · obtain ⟨x, hx⟩ := ih
        exact hx.cons hs hstar

theorem allowed_eq (h : Decided ns x) (hn : n.value = .array ns) : allowed .toml n = x := by
  simp only [allowed, hn]
  cases h with
  | texts h =>
    rw [← List.append_nil ns, scanAllowed_append h]
    simp only [scanAllowed, Except.map, List.append_nil]
    rfl
  | star h hm =>
    rw [scanAllowed_append h, scanAllowed_star hm]
    rfl
  | misfit h hm =>
    rw [scanAllowed_append h, scanAllowed_misfit hm]
    rfl

end Decided

theorem decided_iff (hn : n.value = .array ns) : Decided ns x ↔ allowed .toml n = x := by
  refine ⟨fun h => h.allowed_eq hn, ?_⟩
  rintro rfl
  obtain ⟨x, hx⟩ := Decided.exists_of ns
  rwa [hx.allowed_eq hn]

/-! ### Values -/

theorem allowed_eq_any_iff (hn : n.value = .array ns) : allowed .toml n = .ok .any ↔
    ∃ before m after, ns = before ++ m :: after ∧ IsStar m ∧
      ∀ k ∈ before, k.value.isString = true ∧ ¬ IsStar k := by
  rw [← decided_iff hn]
  constructor
  · intro h
    cases h with
    | star h hm => exact ⟨_, _, _, rfl, hm, exists_areTexts_iff.1 ⟨_, h⟩⟩
  · rintro ⟨before, m, after, rfl, hm, hbefore⟩
    obtain ⟨ss, h⟩ := exists_areTexts_iff.2 hbefore
    exact .star h hm

theorem allowed_eq_only_iff (hn : n.value = .array ns) :
    allowed .toml n = .ok (.only ss) ↔ AreTexts ns ss := by
  rw [← decided_iff hn]
  refine ⟨fun h => ?_, .texts⟩
  cases h with
  | texts h => exact h

/-- Where no star stands before an item that is no text, that item or one before it is at fault. -/
theorem decided_of_misfit (hbefore : ∀ k ∈ before, ¬ IsStar k) (hm : m.value.isString = false) :
    ∃ e, Decided (before ++ m :: after) (.error e) := by
  obtain ⟨x, h⟩ := Decided.exists_of before
  cases h with
  | texts h => exact ⟨_, .misfit h hm⟩
  | star h hk => exact absurd hk (hbefore _ (by simp))
  | misfit h hk =>
    rw [List.append_assoc, List.cons_append]
    exact ⟨_, .misfit h hk⟩

theorem allowed_error_iff (hn : n.value = .array ns) : (∃ e, allowed .toml n = .error e) ↔
    ∃ before m after, ns = before ++ m :: after ∧ m.value.isString = false ∧
      ∀ k ∈ before, ¬ IsStar k := by
  simp only [← decided_iff hn]
  constructor
  · rintro ⟨e, h⟩
    cases h with
    | misfit h hm =>
      exact ⟨_, _, _, rfl, hm, fun k hk => (exists_areTexts_iff.1 ⟨_, h⟩ k hk).2⟩
  · rintro ⟨before, m, after, rfl, hm, hbefore⟩
    exact decided_of_misfit hbefore hm

/-- What a value of a document becomes where a list of what is allowed is wanted. -/
structure Admits (n : Node) (x : Except Fault Allowed) : Prop where
  star : n.value = .string "*" → x = .ok .any
  text : ∀ s, n.value = .string s → s ≠ "*" → x = .ok (.only [s])
  /-- A star counts wherever it stands, if nothing but texts stand before the first one. -/
  any_iff : ∀ ns, n.value = .array ns → (x = .ok .any ↔
    ∃ before m after, ns = before ++ m :: after ∧ IsStar m ∧
      ∀ k ∈ before, k.value.isString = true ∧ ¬ IsStar k)
  only_iff : ∀ ns, n.value = .array ns → ∀ ss, x = .ok (.only ss) ↔ AreTexts ns ss
  /-- An item that is no text counts only if no star stands before it. -/
  error_iff : ∀ ns, n.value = .array ns → ((∃ e, x = .error e) ↔
    ∃ before m after, ns = before ++ m :: after ∧ m.value.isString = false ∧
      ∀ k ∈ before, ¬ IsStar k)
  /-- The first such item is blamed. -/
  blamed : ∀ before m after, n.value = .array (before ++ m :: after) → m.value.isString = false →
    (∀ k ∈ before, k.value.isString = true ∧ ¬ IsStar k) → x = .error (noText m)
  other : n.value.isString = false → (∀ ns, n.value ≠ .array ns) →
    x = .error ⟨n.extent, .mistyped n.value "\"*\" or array of strings"⟩
  starless : ∀ ss, x = .ok (.only ss) → "*" ∉ ss

theorem admits_allowed (n : Node) : Admits n (allowed .toml n) where
  star hn := by simp [allowed, hn]
  text s hn hs := by simp [allowed, hn, hs]
  any_iff _ hn := allowed_eq_any_iff hn
  only_iff _ hn _ := allowed_eq_only_iff hn
  error_iff _ hn := allowed_error_iff hn
  blamed before m after hn hm hbefore := by
    obtain ⟨ss, h⟩ := exists_areTexts_iff.2 hbefore
    exact (decided_iff hn).1 (.misfit h hm)
  other htext harray := by
    obtain ⟨e, v⟩ := n
    cases v with
    | string s => cases htext
    | array ns => exact absurd rfl (harray ns)
    | _ => rfl
  starless _ hx := allowed_starless hx

/-! ### The lists of a policy -/

/-- The lists of a policy for other origins, by their names. -/
def policyLists : List (String × (Cors → Allowed)) :=
  [("origins", Cors.origins), ("methods", Cors.methods), ("headers", Cors.headers)]

theorem Field.map_set_of {σ α : Type} {decode : Decoder α} {put : σ → α → σ} {get : σ → α}
    (h : ∀ r x, get (put r x) = x) (name : String) (d : Dialect) (n : Node) (r : σ) :
    ((Field.of name decode put).set d n r).map get = decode d n := by
  change ((decode d n).map (put r)).map get = decode d n
  cases decode d n with
  | error e => rfl
  | ok x => exact congrArg Except.ok (h r x)

theorem map_set_policyList {list : String × (Cors → Allowed)} (hlist : list ∈ policyLists)
    {f : Field Cors} (hf : f ∈ corsRecord.fields) (hname : f.name = list.1) (d : Dialect) (n : Node)
    (c : Cors) : (f.set d n c).map list.2 = allowed d n := by
  simp only [policyLists, List.mem_cons, List.not_mem_nil, or_false] at hlist
  simp only [corsRecord, List.mem_cons, List.not_mem_nil, or_false] at hf
  -- of the fifteen pairs three have one name
  rcases hlist with rfl | rfl | rfl <;> rcases hf with rfl | rfl | rfl | rfl | rfl <;>
    simp only [Field.of, String.reduceEq] at hname <;>
    exact Field.map_set_of (fun _ _ => rfl) _ d n c

/-- A value given for origins, methods or headers is read as one list of what is allowed, and the
first star in it or the first item that is no text decides what it becomes. -/
theorem policy_lists_admit : ∀ list ∈ policyLists, ∀ f ∈ corsRecord.fields, f.name = list.1 →
    ∀ (n : Node) (c : Cors), Admits n ((f.set .toml n c).map list.2) := by
  intro list hlist f hf hname n c
  rw [map_set_policyList hlist hf hname]
  exact admits_allowed n

/-- A number behind a star. -/
def starred : Node :=
  ⟨{}, .array [⟨{}, .string "http://a"⟩, ⟨{}, .string "*"⟩, ⟨{}, .integer 3⟩]⟩

theorem policy_lists_admit_starred :
    ∃ f ∈ corsRecord.fields, f.name = "origins" ∧ ("origins", Cors.origins) ∈ policyLists ∧
      Admits starred ((f.set .toml starred {}).map Cors.origins) ∧
      (f.set .toml starred {}).map Cors.origins = .ok .any := by
  let f : Field Cors := .of "origins" allowed fun c x => { c with origins := x }
  have hf : f ∈ corsRecord.fields := List.mem_cons_self
  have hlist : ("origins", Cors.origins) ∈ policyLists := List.mem_cons_self
  exact ⟨f, hf, rfl, hlist, policy_lists_admit _ hlist f hf rfl starred {}, rfl⟩

end Mockup.Config
