import Mathlib.Data.Bool.AllAny
import Mathlib.Data.List.DropRight
import Mockup.Model.Client
import Mockup.Proofs.Network.Url

/-! The endpoint of generation. The path of generation is appended to the text of the base address,
so it becomes a part of whatever stands last in it: of the fragment, of the query if there is no
fragment, and of the path only if there is neither. -/

namespace Mockup.Model

open Network

/-- A text without the slashes at its end. -/
def trimSlashes (s : List Char) : List Char := s.rdropWhile (· == '/')

/-- The path of generation. -/
def generatePath : List Char := "/api/generate".toList

theorem toList_endpointUnder (base : List Char) :
    (endpointUnder base).toList = trimSlashes base ++ generatePath := String.toList_ofList

/-! ### Slashes at the end -/

theorem trimSlashes_concat_slash (s : List Char) : trimSlashes (s ++ ['/']) = trimSlashes s :=
  List.rdropWhile_concat_pos _ s '/' rfl

theorem trimSlashes_concat {c : Char} (h : c ≠ '/') (s : List Char) :
    trimSlashes (s ++ [c]) = s ++ [c] :=
  List.rdropWhile_concat_neg _ s c (by simpa using h)

theorem trimSlashes_append {s : List Char} (hs : ∀ c ∈ s.getLast?, c ≠ '/') (t : List Char) :
    trimSlashes (s ++ t) = s ++ trimSlashes t := by
  induction t using List.reverseRecOn with
  | nil =>
    rw [List.append_nil]
    refine (List.rdropWhile_eq_self_iff.2 fun hne => ?_).trans (List.append_nil s).symm
    simpa using hs _ (List.getLast?_eq_some_getLast hne)
  | append_singleton t c ih =>
    rw [← List.append_assoc]
    by_cases hc : c = '/'
    · rw [hc, trimSlashes_concat_slash, trimSlashes_concat_slash, ih]
    · rw [trimSlashes_concat hc, trimSlashes_concat hc, List.append_assoc]

theorem trimSlashes_append_cons {sign : Char} (hsign : sign ≠ '/') (s t : List Char) :
    trimSlashes (s ++ sign :: t) = s ++ sign :: trimSlashes t := by
  rw [List.append_cons, trimSlashes_append (by simpa using hsign), ← List.append_cons]

theorem mem_of_mem_trimSlashes {s : List Char} {c : Char} (h : c ∈ trimSlashes s) : c ∈ s :=
  (List.rdropWhile_prefix _ s).subset h

/-- Only slashes are dropped, so no text is its own endpoint. -/
theorem ne_trimSlashes_append (s : List Char) : s ≠ trimSlashes s ++ generatePath := by
  intro h
  have hsplit : trimSlashes s ++ s.rtakeWhile (· == '/') = trimSlashes s ++ generatePath :=
    List.rdropWhile_append_rtakeWhile.trans h
  have hslashes : s.rtakeWhile (· == '/') = generatePath := List.append_cancel_left hsplit
  have ha : 'a' ∈ s.rtakeWhile (· == '/') := hslashes ▸ by decide
  exact absurd (List.mem_rtakeWhile_imp ha) (by decide)

/-- Slashes at the end of a path are empty segments at its end. -/
theorem trimSlashes_segments {ss : List (List Char)} (h : ∀ s ∈ ss, '/' ∉ s) :
    trimSlashes (UrlPath.segments ss).text =
      (UrlPath.segments (ss.rdropWhile List.isEmpty)).text := by
  change trimSlashes (ss.flatMap ('/' :: ·)) = (ss.rdropWhile List.isEmpty).flatMap ('/' :: ·)
  induction ss using List.reverseRecOn with
  | nil => rfl
  | append_singleton ss s ih =>
    obtain ⟨hss, hs⟩ := List.forall_mem_append.1 h
    rw [List.flatMap_append, List.flatMap_singleton]
    cases s using List.reverseRecOn with
    | nil =>
      rw [List.rdropWhile_concat_pos _ _ _ rfl, ← ih hss]
      exact trimSlashes_concat_slash _
    | append_singleton s c =>
      have hc : c ≠ '/' := by
        rintro rfl
        simpa using hs (s ++ ['/']) (List.mem_singleton_self _)
      rw [List.rdropWhile_concat_neg _ _ _ (by simp), List.flatMap_append,
        List.flatMap_singleton, ← List.cons_append, ← List.append_assoc]
      exact trimSlashes_concat hc _

/-! ### Addresses -/

/-- The parts of an endpoint. The path of generation stands at the end of the last part that the
base address has. -/
structure Extends (base v : Url) : Prop where
  scheme_eq : v.scheme = base.scheme
  authority_eq : v.authority = base.authority
  of_path : base.query = none → base.fragment = none →
    v.path.text = trimSlashes base.path.text ++ generatePath ∧ v.query = none ∧ v.fragment = none
  of_query : ∀ q, base.query = some q → base.fragment = none →
    v.path = base.path ∧ v.query = some (trimSlashes q ++ generatePath) ∧ v.fragment = none
  of_fragment : ∀ f, base.fragment = some f →
    v.path = base.path ∧ v.query = base.query ∧ v.fragment = some (trimSlashes f ++ generatePath)

theorem Extends.path_text_iff {base v : Url} (h : Extends base v) :
    v.path.text = trimSlashes base.path.text ++ generatePath ↔
      base.query = none ∧ base.fragment = none := by
  refine ⟨fun hpath => ?_, fun ⟨hquery, hfragment⟩ => (h.of_path hquery hfragment).1⟩
  cases hfragment : base.fragment with
  | some f =>
    rw [(h.of_fragment f hfragment).1] at hpath
    exact absurd hpath (ne_trimSlashes_append _)
  | none =>
    cases hquery : base.query with
    | some q =>
      rw [(h.of_query q hquery hfragment).1] at hpath
      exact absurd hpath (ne_trimSlashes_append _)
    | none => exact ⟨rfl, rfl⟩

section Kept

variable {u : Url}

theorem forall_mem_trimSlashes_append {set : Char → Bool} {s : List Char}
    (hs : ∀ c ∈ s, set c = false) (hpath : generatePath.all (!set ·) = true) :
    ∀ c ∈ trimSlashes s ++ generatePath, set c = false :=
  List.forall_mem_append.2 ⟨fun c hc => hs c (mem_of_mem_trimSlashes hc), by simpa using hpath⟩

theorem exists_endpoint_of_fragment (h : u.Kept) {f : List Char} (hf : u.fragment = some f) :
    ∃ v : Url, v.Kept ∧ v.text = trimSlashes u.text ++ generatePath ∧ Extends u v := by
  obtain ⟨scheme, authority, path, query, fragment⟩ := u
  cases hf
  refine ⟨⟨scheme, authority, path, query, some (trimSlashes f ++ generatePath)⟩,
    ⟨h.standard, h.authority, h.path, h.query, ?_⟩, ?_, ⟨rfl, rfl, ?_, ?_, ?_⟩⟩
  · rintro _ ⟨⟩
    exact forall_mem_trimSlashes_append (h.fragment f rfl) (by decide)
  · have hsign := trimSlashes_append_cons (by decide : '#' ≠ '/')
    simp only [Url.text_eq, Url.bodyText, Url.partText, ← List.append_assoc, ← List.cons_append,
      hsign]
    rfl
  · exact fun _ => nofun
  · exact fun _ _ => nofun
  · rintro _ ⟨⟩
    exact ⟨rfl, rfl, rfl⟩

theorem exists_endpoint_of_query (h : u.Kept) {q : List Char} (hq : u.query = some q)
    (hf : u.fragment = none) :
    ∃ v : Url, v.Kept ∧ v.text = trimSlashes u.text ++ generatePath ∧ Extends u v := by
  obtain ⟨scheme, authority, path, query, fragment⟩ := u
  cases hq
  cases hf
  refine ⟨⟨scheme, authority, path, some (trimSlashes q ++ generatePath), none⟩,
    ⟨h.standard, h.authority, h.path, ?_, nofun⟩, ?_, ⟨rfl, rfl, ?_, ?_, ?_⟩⟩
  · rintro _ ⟨⟩
    exact forall_mem_trimSlashes_append (h.query q rfl) (by decide)
  · have hsign := trimSlashes_append_cons (by decide : '?' ≠ '/')
    simp only [Url.text_eq, Url.bodyText, Url.partText, ← List.append_assoc, ← List.cons_append,
      List.append_nil, hsign]
    rfl
  · exact nofun
  · rintro _ ⟨⟩ -
    exact ⟨rfl, rfl, rfl⟩
  · exact nofun

theorem text_of_path (scheme : List Char) (a : Authority) (path : UrlPath) :
    Url.text ⟨scheme, some a, path, none, none⟩ =
      scheme ++ [':', '/', '/'] ++ a.text ++ path.text := by
  simp [Url.text_eq, Url.bodyText, Url.authorityText, Url.partText]

theorem exists_endpoint_of_path (h : u.Kept) (hq : u.query = none) (hf : u.fragment = none) :
    ∃ v : Url, v.Kept ∧ v.text = trimSlashes u.text ++ generatePath ∧ Extends u v := by
  obtain ⟨scheme, authority, path, query, fragment⟩ := u
  obtain ⟨a, ha, hkept⟩ := h.authority
  obtain ⟨ss, hss, hpath⟩ := h.path
  cases ha
  cases hss
  cases hq
  cases hf
  have hslash : ∀ c ∈ (scheme ++ [':', '/', '/'] ++ a.text).getLast?, c ≠ '/' := by
    intro c hc
    rw [List.getLast?_append_of_ne_nil _ hkept.text_ne_nil] at hc
    exact Url.ne_of_isPlain (hkept.isPlain c (List.mem_of_getLast? hc)) (by decide)
  have htrim := trimSlashes_segments fun s hs => (hpath.isSegment s hs).notMem
  have htext : (UrlPath.segments (ss.rdropWhile List.isEmpty ++
      ["api".toList, "generate".toList])).text =
        trimSlashes (UrlPath.segments ss).text ++ generatePath := by
    rw [htrim]
    exact List.flatMap_append
  refine ⟨⟨scheme, some a, .segments (ss.rdropWhile List.isEmpty ++
      ["api".toList, "generate".toList]), none, none⟩,
    ⟨h.standard, ⟨a, rfl, hkept⟩, ⟨_, rfl, by simp, ?_⟩, nofun, nofun⟩, ?_, ⟨rfl, rfl, ?_, ?_, ?_⟩⟩
  · refine List.forall_mem_append.2
      ⟨fun s hs => hpath.isSegment s ((List.rdropWhile_prefix _ ss).subset hs), ?_⟩
    exact List.forall_mem_cons.2 ⟨⟨List.all_iff_forall_prop.1 (by decide), by decide⟩,
      List.forall_mem_singleton.2 ⟨List.all_iff_forall_prop.1 (by decide), by decide⟩⟩
  · rw [text_of_path, text_of_path, trimSlashes_append hslash, htext]
    exact (List.append_assoc _ _ _).symm
  · exact fun _ _ => ⟨htext, rfl, rfl⟩
  · exact nofun
  · exact nofun

/-- The text of the endpoint is that of a URL as it is kept. -/
theorem exists_endpoint (h : u.Kept) :
    ∃ v : Url, v.Kept ∧ v.text = trimSlashes u.text ++ generatePath ∧ Extends u v := by
  cases hf : u.fragment with
  | some f => exact exists_endpoint_of_fragment h hf
  | none =>
    cases hq : u.query with
    | some q => exact exists_endpoint_of_query h hq hf
    | none => exact exists_endpoint_of_path h hq hf

end Kept

/-! ### Clients -/

/-- A scheme that posts go out over. -/
def IsWeb (scheme : List Char) : Prop := scheme ∈ ["http".toList, "https".toList]

instance (scheme : List Char) : Decidable (IsWeb scheme) := List.instDecidableMemOfLawfulBEq _ _

theorem IsWeb.standard {scheme : List Char} (h : IsWeb scheme) :
    (Url.defaultPort? scheme).isSome = true := by
  have hall : ∀ s ∈ ["http".toList, "https".toList], (Url.defaultPort? s).isSome = true := by decide
  exact hall scheme h

/-- The endpoint under a base address is read as a URL. Posts go to it, if they go out at all. -/
theorem exists_target {base : Url} (h : base.Kept) :
    ∃ v, Extends base v ∧ ∀ policy, let c := Client.make base policy
      Url.ofText c.endpoint.toList = .ok v ∧
        c.target? = if Client.isPostable v then some v else none := by
  obtain ⟨v, hkept, htext, hv⟩ := exists_endpoint h
  have hread : Url.ofText (endpointUnder base.text).toList = .ok v := by
    rw [toList_endpointUnder, ← htext]
    exact hkept.ofText_text
  refine ⟨v, hv, fun policy => ⟨hread, ?_⟩⟩
  unfold Client.target? Client.make
  rw [hread]

end Mockup.Model
