import Mockup.Config.Load
import Mockup.Proofs.Except

/-! What decoding keeps. A property of the defaults that no field breaks holds of everything that is
decoded. In particular no decoded list of origins, methods or headers holds a star, and the base
address of the model server was read from a text. -/

namespace Mockup.Config

variable {σ α : Type} {P : σ → Prop} {d : Dialect} {n : Node} {s : σ}

/-! ### Records -/

/-- The field keeps the property, whatever value is given for it. -/
def Field.Keeps (f : Field σ) (P : σ → Prop) : Prop :=
  ∀ d n s s', P s → f.set d n s = .ok s' → P s'

theorem Field.keeps_of {name : String} {decode : Decoder α} {put : σ → α → σ}
    (h : ∀ d n x s, decode d n = .ok x → P s → P (put s x)) :
    (Field.of name decode put).Keeps P := by
  intro d n s s' hs hset
  obtain ⟨x, hx, rfl⟩ := Except.map_eq_ok_iff.1 hset
  exact h d n x s hx hs

/-- A field that the property does not speak of. -/
theorem Field.keeps_of_put {name : String} {decode : Decoder α} {put : σ → α → σ}
    (h : ∀ x s, P s → P (put s x)) : (Field.of name decode put).Keeps P :=
  Field.keeps_of fun _ _ x s _ => h x s

namespace Record

variable {r : Record σ}

theorem override_keeps (h : ∀ f ∈ r.fields, f.Keeps P) {e : Entry} {s' : σ} (hs : P s)
    (ho : r.override d s e = .ok s') : P s' := by
  unfold override at ho
  split at ho
  · rename_i f hf
    exact h f (List.mem_of_find?_eq_some hf) d e.node s s' hs ho
  · cases ho

theorem decode_keeps (h₀ : P r.defaults) (h : ∀ f ∈ r.fields, f.Keeps P)
    (hd : r.decode d n = .ok s) : P s := by
  unfold decode at hd
  split at hd
  · obtain ⟨t, ht, hd⟩ := Except.bind_eq_ok_iff.1 hd
    have hkept : P t := Except.foldlM_keeps (fun e _ s s' => override_keeps h) h₀ ht
    split at hd <;> cases hd
    exact hkept
  · rename_i ns _
    obtain ⟨t, ht, hd⟩ := Except.bind_eq_ok_iff.1 hd
    have hkept : P t := Except.foldlM_keeps
      (fun x hx s s' => h x.1 (List.of_mem_zip (a := x.1) (b := x.2) hx).1 d x.2 s s') h₀ ht
    split at hd
    · cases hd
    · split at hd <;> cases hd
      exact hkept
  · cases hd
  · cases hd

end Record

/-! ### Stars -/

/-- No star stands in a list. -/
def Starless : Allowed → Prop
  | .any => True
  | .only values => "*" ∉ values

theorem scanAllowed_starless {ns : List Node} {ss : List String} {rest : Option (List Node)}
    (h : scanAllowed d ns = .ok (ss, rest)) : "*" ∉ ss := by
  induction ns generalizing ss with
  | nil =>
    cases h
    exact List.not_mem_nil
  | cons n ns ih =>
    obtain ⟨s, -, h⟩ := Except.bind_eq_ok_iff.1 h
    split at h
    · cases h
      exact List.not_mem_nil
    · rename_i hs
      obtain ⟨⟨ss', rest'⟩, hscan, h⟩ := Except.bind_eq_ok_iff.1 h
      cases h
      rw [List.mem_cons, not_or]
      exact ⟨Ne.symm hs, ih hscan⟩

theorem allowed_starless {a : Allowed} (h : allowed d n = .ok a) : Starless a := by
  unfold allowed at h
  split at h
  · cases h
    split
    · trivial
    · rename_i hs
      simpa [Starless] using Ne.symm hs
  · obtain ⟨⟨ss, rest⟩, hscan, h⟩ := Except.bind_eq_ok_iff.1 h
    cases rest with
    | none =>
      cases h
      exact scanAllowed_starless hscan
    | some rest =>
      dsimp only at h
      split at h <;> cases h
      trivial
  · cases h

def Cors.Starless (c : Cors) : Prop :=
  Config.Starless c.origins ∧ Config.Starless c.methods ∧ Config.Starless c.headers

theorem Cors.starless_default : Cors.Starless {} := ⟨trivial, trivial, trivial⟩

theorem corsRecord_starless {c : Cors} (h : corsRecord.decode d n = .ok c) : c.Starless := by
  refine Record.decode_keeps (P := Cors.Starless) Cors.starless_default ?_ h
  simp only [corsRecord, List.forall_mem_cons]
  refine ⟨?_, ?_, ?_, ?_, ?_, List.forall_mem_nil _⟩
  · exact Field.keeps_of fun _ _ _ _ hx h => ⟨allowed_starless hx, h.2.1, h.2.2⟩
  · exact Field.keeps_of fun _ _ _ _ hx h => ⟨h.1, allowed_starless hx, h.2.2⟩
  · exact Field.keeps_of fun _ _ _ _ hx h => ⟨h.1, h.2.1, allowed_starless hx⟩
  · exact Field.keeps_of_put fun _ _ h => h
  · exact Field.keeps_of_put fun _ _ h => h

def Server.Starless (s : Server) : Prop := ∀ c ∈ s.cors, c.Starless

theorem Server.starless_default : Server.Starless {} := by
  intro c hc
  cases hc
  exact Cors.starless_default

theorem serverRecord_starless {s : Server} (h : serverRecord.decode d n = .ok s) : s.Starless := by
  refine Record.decode_keeps (P := Server.Starless) Server.starless_default ?_ h
  simp only [serverRecord, List.forall_mem_cons]
  refine ⟨?_, ?_, ?_, ?_, ?_, List.forall_mem_nil _⟩
  · exact Field.keeps_of_put fun _ _ h => h
  · exact Field.keeps_of_put fun _ _ h => h
  · exact Field.keeps_of_put fun _ _ h => h
  · exact Field.keeps_of_put fun _ _ h => h
  · refine Field.keeps_of fun d n x s hx _ c hc => ?_
    cases hc
    unfold Decoder.optional at hx
    split at hx
    · cases hx
    · obtain ⟨c', hc', he⟩ := Except.map_eq_ok_iff.1 hx
      cases he
      exact corsRecord_starless hc'

/-- A configuration that is read from a text is decoded from its table. -/
theorem exists_decode_of_ofToml {text : String} {c : Config} (h : ofToml text = .ok c) :
    ∃ n, record.decode .toml n = .ok c := by
  unfold ofToml at h
  split at h
  · cases h
  · rename_i n _
    split at h
    · rename_i hdecode
      cases h
      exact ⟨n, hdecode⟩
    · split at h <;> cases h

/-- No configuration that is read from a text has a star in a list. -/
theorem ofToml_starless {text : String} {c : Config} (h : ofToml text = .ok c) :
    c.server.Starless := by
  obtain ⟨n, hdecode⟩ := exists_decode_of_ofToml h
  refine Record.decode_keeps (P := fun c => c.server.Starless) Server.starless_default ?_ hdecode
  simp only [record, List.forall_mem_cons]
  refine ⟨?_, ?_, ?_, ?_, List.forall_mem_nil _⟩
  · exact Field.keeps_of fun _ _ _ _ hx _ => serverRecord_starless hx
  · exact Field.keeps_of_put fun _ _ h => h
  · exact Field.keeps_of_put fun _ _ h => h
  · exact Field.keeps_of_put fun _ _ h => h

/-! ### The base address -/

/-- The base address was read from some text. -/
def Backend.IsRead (b : Backend) : Prop := ∃ s, Network.Url.ofText s = .ok b.baseUrl

theorem Backend.isRead_default : Backend.IsRead {} :=
  ⟨"http://localhost:11434".toList, by decide +kernel⟩

theorem url_isRead {u : Network.Url} (h : Decoder.url d n = .ok u) :
    ∃ s, Network.Url.ofText s = .ok u := by
  unfold Decoder.url at h
  split at h
  · split at h
    · rename_i hread
      cases h
      exact ⟨_, hread⟩
    · cases h
  · cases h

theorem backendRecord_isRead {b : Backend} (h : backendRecord.decode d n = .ok b) : b.IsRead := by
  refine Record.decode_keeps (P := Backend.IsRead) Backend.isRead_default ?_ h
  simp only [backendRecord, List.forall_mem_cons]
  refine ⟨?_, ?_, ?_, List.forall_mem_nil _⟩
  · exact Field.keeps_of fun _ _ _ _ hx _ => url_isRead hx
  · exact Field.keeps_of_put fun _ _ h => h
  · exact Field.keeps_of_put fun _ _ h => h

theorem ofToml_isRead {text : String} {c : Config} (h : ofToml text = .ok c) :
    c.backend.IsRead := by
  obtain ⟨n, hdecode⟩ := exists_decode_of_ofToml h
  refine Record.decode_keeps (P := fun c => c.backend.IsRead) Backend.isRead_default ?_ hdecode
  simp only [record, List.forall_mem_cons]
  refine ⟨?_, ?_, ?_, ?_, List.forall_mem_nil _⟩
  · exact Field.keeps_of_put fun _ _ h => h
  · exact Field.keeps_of fun _ _ _ _ hx _ => backendRecord_isRead hx
  · exact Field.keeps_of_put fun _ _ h => h
  · exact Field.keeps_of_put fun _ _ h => h

/-- With a file and without one, the base address was read. -/
theorem loadOrDefault_isRead {disk : Disk} {path : Option String} {c : Config}
    (h : loadOrDefault disk path = .ok c) : c.backend.IsRead := by
  cases path with
  | none =>
    cases h
    exact Backend.isRead_default
  | some path =>
    change load disk path = .ok c at h
    unfold load at h
    split at h
    · cases h
    · obtain ⟨c', hread, h⟩ := Except.bind_eq_ok_iff.1 h
      split at h
      · cases h
        exact ofToml_isRead hread
      · cases h

end Mockup.Config
