import Mockup.Proofs.Except
import Mockup.Proofs.Network.Host
import Mockup.Proofs.Network.Path

/-! URLs are read back, for the schemes with a host and a default port. What is kept of a part holds
none of the signs that end it, so each cut is made again where the text was put together. -/

namespace Mockup.Network

open Text

/-! ### Cuts -/

theorem spanTo_append {p : Char → Bool} {s t : List Char} (hs : ∀ c ∈ s, p c = false)
    (ht : ∀ c ∈ t.head?, p c = true) : spanTo p (s ++ t) = (s, t) := by
  have hs' : ∀ c ∈ s, (!p c) = true := by simpa using hs
  have ht' : ∀ c ∈ t.head?, (!p c) = false := by simpa using ht
  rw [spanTo, takeWhile_append_of_head hs' ht', dropWhile_append_of_head hs' ht']

theorem splitUserinfo_of_notMem {s : List Char} (h : '@' ∉ s) : splitUserinfo s = (none, s) := by
  have hall : ∀ c ∈ s.reverse, (c != '@') = true := fun c hc => by
    rw [bne_iff_ne]
    rintro rfl
    exact h (List.mem_reverse.1 hc)
  unfold splitUserinfo
  rw [List.takeWhile_eq_self_iff.2 hall, List.reverse_reverse]
  exact if_pos rfl

theorem splitUserinfo_append {s t : List Char} (h : '@' ∉ t) :
    splitUserinfo (s ++ '@' :: t) = (some s, t) := by
  have hall : ∀ c ∈ t.reverse, (c != '@') = true := fun c hc => by
    rw [bne_iff_ne]
    rintro rfl
    exact h (List.mem_reverse.1 hc)
  have hreverse : (s ++ '@' :: t).reverse = t.reverse ++ '@' :: s.reverse := by simp
  have hhost : ((s ++ '@' :: t).reverse.takeWhile (· != '@')).reverse = t := by
    rw [hreverse, List.takeWhile_append_of_pos hall, List.takeWhile_cons_of_neg (by simp),
      List.append_nil, List.reverse_reverse]
  unfold splitUserinfo
  rw [hhost]
  dsimp only
  have hlength : (s ++ '@' :: t).length - t.length - 1 = s.length := by
    rw [List.length_append, List.length_cons]
    omega
  rw [hlength, List.take_left, if_neg]
  rw [List.length_append, List.length_cons]
  omega

/-- Text without brackets, and without colons unless it stands between brackets. -/
theorem splitPort_append {inside : Bool} {s : List Char}
    (hs : ∀ c ∈ s, c ≠ '[' ∧ c ≠ ']' ∧ (c = ':' → inside = true)) (t : List Char) :
    splitPort inside (s ++ t) = (s ++ (splitPort inside t).1, (splitPort inside t).2) := by
  induction s with
  | nil => rfl
  | cons c s ih =>
    obtain ⟨⟨hopen, hclose, hcolon⟩, hs⟩ := List.forall_mem_cons.1 hs
    have hport : ¬ (c = ':' && !inside) = true := by
      simpa using hcolon
    rw [List.cons_append, splitPort, if_neg hport, if_neg hopen, if_neg hclose, ih hs]
    rfl

theorem splitPort_text {host : Host} (h : host.Kept) {port : List Char}
    (hport : ∀ c ∈ port.head?, c = ':') :
    splitPort false (host.text ++ port) = (host.text, port) := by
  have hend : splitPort false port = ([], port) := by
    cases port with
    | nil => rfl
    | cons c port =>
      rw [hport c rfl]
      rfl
  have hcanonical {name : List Char} (hname : Domain.Canonical name) :
      splitPort false (name ++ port) = (name, port) := by
    rw [splitPort_append fun c hc => ?_, hend, List.append_nil]
    have hsigns := (hname.isPlain hc).2
    simp only [List.mem_cons, List.not_mem_nil, or_false, not_or] at hsigns
    exact ⟨hsigns.2.2.1, hsigns.2.2.2, fun h => absurd h hsigns.2.1⟩
  cases h with
  | domain hname _ _ => exact hcanonical hname
  | v4 a => exact hcanonical a.canonical_text
  | v6 a =>
    have hinside : splitPort true (a.text ++ ']' :: port) = (a.text ++ [']'], port) := by
      rw [splitPort_append fun c hc => ?_]
      · change (a.text ++ ']' :: (splitPort false port).1, (splitPort false port).2) = _
        rw [hend]
      · have hsigns := (IPv6.isPlain hc).2
        simp only [List.mem_cons, List.not_mem_nil, or_false, not_or] at hsigns
        exact ⟨hsigns.2.1, hsigns.2.2, fun _ => rfl⟩
    change (('[' :: (splitPort true (a.text ++ [']'] ++ port)).1),
      (splitPort true (a.text ++ [']'] ++ port)).2) = _
    rw [List.append_assoc, List.singleton_append, hinside]
    rfl

/-! ### Authorities -/

/-- The port of an authority, with its colon. -/
def portText (port : Option UInt16) : List Char :=
  match port with
  | some p => ':' :: Number.digits p.toNat
  | none => []

theorem port?_digits (p : UInt16) : port? (Number.digits p.toNat) = some p := by
  obtain ⟨hne, hdigits⟩ := Json.isDigits_digits p.toNat
  unfold port? number?
  rw [List.all_eq_true.2 hdigits, Json.ofDigits_digits, if_neg (by simpa using hne),
    if_pos p.toNat_lt, Option.map_some, UInt16.ofNat_toNat]

theorem readPort_portText {standard port : Option UInt16} (h : ∀ p ∈ port, standard ≠ some p) :
    readPort standard (portText port) = .ok port := by
  cases port with
  | none => rfl
  | some p =>
    have hne : Number.digits p.toNat ≠ [] := Nat.toDigits_ne_nil
    unfold portText readPort
    split
    · rename_i heq
      cases heq
    · rename_i heq
      exact absurd (List.cons.inj heq).2 hne
    · rename_i heq
      rw [← (List.cons.inj heq).2, port?_digits]
      exact congrArg Except.ok (if_neg (h p rfl))

theorem ne_of_readPort {standard port : Option UInt16} {s : List Char}
    (h : readPort standard s = .ok port) : ∀ p ∈ port, standard ≠ some p := by
  rintro p rfl
  unfold readPort at h
  split at h
  · cases h
  · cases h
  · split at h
    · split_ifs at h with hne
      · cases h
      · cases h
        exact hne
    · cases h

/-- An authority as it is kept under a scheme. -/
structure Authority.Kept (scheme : List Char) (a : Authority) : Prop where
  username : ∀ c ∈ a.username, Percent.inUserinfo c = false
  password : ∀ c ∈ a.password, Percent.inUserinfo c = false
  host : a.host.Kept
  port : ∀ p ∈ a.port, Url.defaultPort? scheme ≠ some p

theorem isPlain_of_userinfo {c : Char} (h : Percent.inUserinfo c = false) :
    isPlain c = true ∧ c ≠ ':' := by
  refine ⟨isPlain_iff.2 ?_, by rintro rfl; revert h; decide⟩
  simp only [Percent.inUserinfo, Percent.inPath, Percent.inFragment, Percent.isControl,
    Bool.or_eq_false_iff, decide_eq_false_iff_not, List.contains_eq_mem, List.mem_cons,
    List.not_mem_nil, or_false, not_or, ← Char.toNat_inj, Char.reduceToNat] at h
  refine ⟨by omega, by omega, fun n hn => ?_⟩
  simp only [List.mem_cons, List.not_mem_nil, or_false] at hn
  omega

theorem isPlain_portText {port : Option UInt16} :
    ∀ c ∈ portText port, isPlain c = true ∧ c ≠ '@' := by
  cases port with
  | none => exact List.forall_mem_nil _
  | some p =>
    refine List.forall_mem_cons.2 ⟨by decide, fun c hc => ?_⟩
    have hrange := Number.toNat_of_isDigit ((Json.isDigits_digits p.toNat).2 c hc)
    refine ⟨isPlain_iff.2 ⟨by omega, by omega, fun n hn => ?_⟩, ?_⟩
    · simp only [List.mem_cons, List.not_mem_nil, or_false] at hn
      omega
    · rintro rfl
      revert hrange
      decide

namespace Authority

variable {scheme : List Char} {a : Authority}

theorem text_eq (a : Authority) : a.text =
    a.username ++ (if a.password.isEmpty then [] else ':' :: a.password) ++
      (if a.isAnonymous then [] else ['@']) ++ (a.host.text ++ portText a.port) := by
  unfold text portText
  exact List.append_assoc _ _ _

theorem Kept.isPlain (h : a.Kept scheme) : ∀ c ∈ a.text, Network.isPlain c = true := by
  rw [text_eq]
  simp only [List.forall_mem_append]
  refine ⟨⟨⟨fun c hc => (isPlain_of_userinfo (h.username c hc)).1, ?_⟩, ?_⟩,
    fun c hc => (h.host.isPlain c hc).1, fun c hc => (isPlain_portText c hc).1⟩
  · split_ifs
    · exact List.forall_mem_nil _
    · exact List.forall_mem_cons.2
        ⟨by decide, fun c hc => (isPlain_of_userinfo (h.password c hc)).1⟩
  · split_ifs
    · exact List.forall_mem_nil _
    · exact List.forall_mem_singleton.2 (by decide)

theorem Kept.text_ne_nil (h : a.Kept scheme) : a.text ≠ [] := by
  rw [text_eq]
  exact List.append_ne_nil_of_right_ne_nil _
    (List.append_ne_nil_of_left_ne_nil h.host.text_ne_nil _)

/-- The text is cut into the parts that it was put together from. -/
theorem Kept.exists_userinfo (h : a.Kept scheme) : ∃ userinfo,
    splitUserinfo a.text = (userinfo, a.host.text ++ portText a.port) ∧ userinfo ≠ some [] ∧
      spanTo (· == ':') (userinfo.getD []) =
        (a.username, if a.password.isEmpty then [] else ':' :: a.password) := by
  have hat : '@' ∉ a.host.text ++ portText a.port := by
    rw [List.mem_append, not_or]
    exact ⟨fun hc => (h.host.isPlain _ hc).2 rfl, fun hc => (isPlain_portText _ hc).2 rfl⟩
  have hspan : spanTo (· == ':')
      (a.username ++ if a.password.isEmpty then [] else ':' :: a.password) =
        (a.username, if a.password.isEmpty then [] else ':' :: a.password) := by
    refine spanTo_append (fun c hc => ?_) fun c hc => ?_
    · simpa using (isPlain_of_userinfo (h.username c hc)).2
    · split_ifs at hc
      · cases hc
      · cases hc
        rfl
  rw [text_eq]
  by_cases hanonymous : a.isAnonymous = true
  · simp only [isAnonymous, Bool.and_eq_true, List.isEmpty_iff] at hanonymous
    refine ⟨none, ?_, nofun, ?_⟩
    · simpa [isAnonymous, hanonymous] using splitUserinfo_of_notMem hat
    · simp [hanonymous, spanTo]
  · refine ⟨some (a.username ++ if a.password.isEmpty then [] else ':' :: a.password),
      ?_, ?_, hspan⟩
    · rw [if_neg hanonymous, List.append_assoc, List.singleton_append]
      exact splitUserinfo_append hat
    · intro hnil
      obtain ⟨huser, hpassword⟩ := List.append_eq_nil_iff.1 (Option.some.inj hnil)
      split_ifs at hpassword with hempty
      exact hanonymous (by simp [isAnonymous, huser, hempty])

theorem Kept.ofText_text (h : a.Kept scheme) (hspecial : Url.isSpecialScheme scheme = true)
    (followed : Bool) : ofText scheme a.text followed = .ok a := by
  obtain ⟨userinfo, hsplit, hne, hspan⟩ := h.exists_userinfo
  have hport : ∀ c ∈ (portText a.port).head?, c = ':' := by
    cases a.port with
    | none => exact nofun
    | some p =>
      intro c hc
      cases hc
      rfl
  have hpassword : (if a.password.isEmpty then [] else ':' :: a.password).drop 1 = a.password := by
    split_ifs with hempty
    · exact (List.isEmpty_iff.1 hempty).symm
    · rfl
  unfold ofText
  rw [hsplit]
  dsimp only
  rw [hspan, splitPort_text h.host hport, if_neg (by simp [hne])]
  dsimp only
  rw [hpassword, Percent.encode_eq_self h.username, Percent.encode_eq_self h.password, hspecial,
    if_neg (by simp [h.host.text_ne_nil]), if_pos rfl, h.host.ofName_text]
  change (readPort _ _).bind _ = _
  rw [readPort_portText h.port]
  exact if_neg (by simp [h.host.ne_domain_nil])

theorem kept_of_ofText {s : List Char} {followed : Bool} (h : ofText scheme s followed = .ok a)
    (hspecial : Url.isSpecialScheme scheme = true) : a.Kept scheme := by
  unfold ofText at h
  dsimp only at h
  rw [hspecial, if_pos rfl] at h
  split at h
  · cases h
  split at h
  · cases h
  obtain ⟨host, hhost, h⟩ := Except.bind_eq_ok_iff.1 h
  obtain ⟨port, hport, h⟩ := Except.bind_eq_ok_iff.1 h
  split at h
  · cases h
  cases h
  exact ⟨fun c => Percent.set_of_mem_encode (by decide),
    fun c => Percent.set_of_mem_encode (by decide), Host.kept_of_ofName hhost, ne_of_readPort hport⟩

end Authority

/-! ### URLs -/

namespace Url

variable {scheme : List Char} {u : Url}

/-- A URL as it is kept, under a scheme with a host and a default port. -/
structure Kept (u : Url) : Prop where
  standard : (defaultPort? u.scheme).isSome = true
  authority : ∃ a, u.authority = some a ∧ a.Kept u.scheme
  path : ∃ ss, u.path = .segments ss ∧ IsPath ss
  query : ∀ q ∈ u.query, ∀ c ∈ q, Percent.inSpecialQuery c = false
  fragment : ∀ f ∈ u.fragment, ∀ c ∈ f, Percent.inFragment c = false

theorem mem_of_defaultPort? (h : (defaultPort? scheme).isSome = true) :
    scheme ∈ ["http".toList, "ws".toList, "https".toList, "wss".toList, "ftp".toList] := by
  have hscheme {t : String} (ht : String.ofList scheme = t) : scheme = t.toList := by
    rw [← ht, String.toList_ofList]
  unfold defaultPort? at h
  split at h
  · rename_i heq
    simp [hscheme heq]
  · rename_i heq
    simp [hscheme heq]
  · rename_i heq
    simp [hscheme heq]
  · rename_i heq
    simp [hscheme heq]
  · rename_i heq
    simp [hscheme heq]
  · cases h

theorem isSpecialScheme_of_defaultPort? (h : (defaultPort? scheme).isSome = true) :
    isSpecialScheme scheme = true := by
  rw [isSpecialScheme, h, Bool.or_true]

theorem not_isFileScheme_of_defaultPort? (h : (defaultPort? scheme).isSome = true) :
    isFileScheme scheme = false := by
  have hall : ∀ s ∈ ["http".toList, "ws".toList, "https".toList, "wss".toList, "ftp".toList],
      isFileScheme s = false := by decide
  exact hall scheme (mem_of_defaultPort? h)

theorem isPlain_scheme (h : (defaultPort? scheme).isSome = true) :
    ∀ c ∈ scheme, isPlain c = true := by
  have hall : ∀ s ∈ ["http".toList, "ws".toList, "https".toList, "wss".toList, "ftp".toList],
      s.all isPlain = true := by decide
  exact List.all_eq_true.1 (hall scheme (mem_of_defaultPort? h))

theorem readScheme?_append (h : (defaultPort? scheme).isSome = true) (s : List Char) :
    readScheme? (scheme ++ ':' :: s) = some (scheme, s) := by
  have hmem := mem_of_defaultPort? h
  simp only [List.mem_cons, List.not_mem_nil, or_false] at hmem
  rcases hmem with rfl | rfl | rfl | rfl | rfl <;> rfl

/-- The query or the fragment, behind its sign. -/
def partText (sign : Char) (part : Option (List Char)) : List Char :=
  match part with
  | some s => sign :: s
  | none => []

/-- The text between the scheme and the query. -/
def bodyText (u : Url) : List Char := u.authorityText ++ u.path.text

theorem text_eq (u : Url) : u.text = u.scheme ++ ':' ::
    (u.bodyText ++ partText '?' u.query ++ partText '#' u.fragment) := by
  unfold text bodyText partText
  cases u.query <;> cases u.fragment <;> rfl

theorem clean_eq_self {s : List Char} (h : ∀ c ∈ s, 32 < c.toNat) : clean s = s := by
  have hdrop {t : List Char} (ht : ∀ c ∈ t, 32 < c.toNat) : t.dropWhile isSurrounding = t := by
    cases t with
    | nil => rfl
    | cons c t =>
      refine List.dropWhile_cons_of_neg ?_
      have := ht c List.mem_cons_self
      simpa [isSurrounding] using this
  have hbreak : ∀ c ∈ s, (!isBreak c) = true := by
    intro c hc
    have hlow := h c hc
    simp only [isBreak, Bool.not_eq_true', Bool.or_eq_false_iff, decide_eq_false_iff_not]
    refine ⟨⟨?_, ?_⟩, ?_⟩ <;>
      rintro rfl <;>
      revert hlow <;>
      decide
  unfold clean
  rw [hdrop h, hdrop fun c hc => h c (List.mem_reverse.1 hc), List.reverse_reverse]
  exact List.filter_eq_self.2 hbreak

theorem isPlain_of_segment {s : List Char} (h : IsSegment s) : ∀ c ∈ s, isPlain c = true := by
  intro c hc
  obtain ⟨hpath, hslash, hbackslash⟩ := h.allowed c hc
  rw [ne_eq, ← Char.toNat_inj] at hslash hbackslash
  simp only [Percent.inPath, Percent.inFragment, Percent.isControl, Bool.or_eq_false_iff,
    decide_eq_false_iff_not, List.contains_eq_mem, List.mem_cons, List.not_mem_nil, or_false,
    not_or, ← Char.toNat_inj, Char.reduceToNat] at hpath hslash hbackslash
  refine isPlain_iff.2 ⟨by omega, by omega, fun n hn => ?_⟩
  simp only [List.mem_cons, List.not_mem_nil, or_false] at hn
  omega

theorem Kept.isPlain_body (h : u.Kept) : ∀ c ∈ u.bodyText, isPlain c = true ∨ c = '/' := by
  obtain ⟨a, ha, hkept⟩ := h.authority
  obtain ⟨ss, hss, hpath⟩ := h.path
  unfold bodyText authorityText
  rw [ha, hss]
  refine List.forall_mem_append.2 ⟨?_, fun c hc => ?_⟩
  · exact List.forall_mem_cons.2 ⟨.inr rfl, List.forall_mem_cons.2 ⟨.inr rfl,
      fun c hc => .inl (hkept.isPlain c hc)⟩⟩
  · obtain ⟨s, hs, hc⟩ := List.mem_flatMap.1 hc
    rcases List.mem_cons.1 hc with rfl | hc
    · exact .inr rfl
    · exact .inl (isPlain_of_segment (hpath.isSegment s hs) c hc)

theorem ne_of_isPlain {c d : Char} (h : isPlain c = true) (hd : isPlain d = false) : c ≠ d := by
  rintro rfl
  rw [h] at hd
  cases hd

theorem Kept.readBody_bodyText (h : u.Kept) (followed : Bool) :
    readBody u.scheme u.bodyText followed = .ok (u.authority, u.path) := by
  have hslashed : (u.bodyText.map fun c => if c = '\\' then '/' else c) = u.bodyText := by
    refine (List.map_congr_left fun c hc => if_neg ?_).trans (List.map_id _)
    rintro rfl
    rcases h.isPlain_body _ hc with h | h <;> revert h <;> decide
  obtain ⟨a, ha, hkept⟩ := h.authority
  obtain ⟨ss, hss, hpath⟩ := h.path
  have htext := text_segments hpath.ne_nil
  have hspan : spanTo (· == '/') (a.text ++ (UrlPath.segments ss).text) =
      (a.text, (UrlPath.segments ss).text) := by
    refine spanTo_append (fun c hc => ?_) fun c hc => ?_
    · simpa using ne_of_isPlain (hkept.isPlain c hc) (by decide)
    · rw [htext] at hc
      cases hc
      rfl
  have hdrop : u.bodyText.dropWhile (· == '/') = a.text ++ (UrlPath.segments ss).text := by
    unfold bodyText authorityText
    rw [ha, hss]
    obtain ⟨c, t, hc⟩ := List.exists_cons_of_ne_nil hkept.text_ne_nil
    have hslash : c ≠ '/' := ne_of_isPlain (hkept.isPlain c (hc ▸ List.mem_cons_self)) (by decide)
    dsimp only
    rw [hc]
    simp [hslash]
  have hne : (UrlPath.segments ss).text.isEmpty = false := by rw [htext, List.isEmpty_cons]
  unfold readBody
  rw [hslashed, not_isFileScheme_of_defaultPort? h.standard,
    isSpecialScheme_of_defaultPort? h.standard, if_neg Bool.false_ne_true, if_pos rfl, hdrop]
  unfold readHierarchy
  rw [hspan]
  dsimp only
  rw [hkept.ofText_text (isSpecialScheme_of_defaultPort? h.standard), hne]
  change Except.ok (some a, UrlPath.segments (readSegments false (UrlPath.segments ss).text)) = _
  rw [readSegments_text hpath, ha, hss]

theorem visible_of_query {c : Char} (h : Percent.inSpecialQuery c = false) :
    32 < c.toNat ∧ c ≠ '#' := by
  refine ⟨?_, by rintro rfl; revert h; decide⟩
  simp only [Percent.inSpecialQuery, Percent.inQuery, Percent.isControl, Bool.or_eq_false_iff,
    decide_eq_false_iff_not, List.contains_eq_mem, List.mem_cons, List.not_mem_nil, or_false,
    not_or, ← Char.toNat_inj, Char.reduceToNat] at h
  omega

theorem visible_of_fragment {c : Char} (h : Percent.inFragment c = false) : 32 < c.toNat := by
  simp only [Percent.inFragment, Percent.isControl, Bool.or_eq_false_iff,
    decide_eq_false_iff_not, List.contains_eq_mem, List.mem_cons, List.not_mem_nil, or_false,
    not_or, ← Char.toNat_inj, Char.reduceToNat] at h
  omega

theorem visible_of_isPlain {c : Char} (h : isPlain c = true) : 32 < c.toNat := (isPlain_iff.1 h).1

theorem forall_mem_partText {P : Char → Prop} {sign : Char} {part : Option (List Char)}
    (hsign : P sign) (hpart : ∀ s ∈ part, ∀ c ∈ s, P c) : ∀ c ∈ partText sign part, P c := by
  cases part with
  | none => exact List.forall_mem_nil _
  | some s => exact List.forall_mem_cons.2 ⟨hsign, hpart s rfl⟩

theorem head?_partText {sign : Char} {part : Option (List Char)} :
    ∀ c ∈ (partText sign part).head?, (c == sign) = true := by
  cases part with
  | none => exact nofun
  | some s =>
    intro c hc
    cases hc
    exact beq_self_eq_true sign

theorem Kept.visible (h : u.Kept) : ∀ c ∈ u.text, 32 < c.toNat := by
  rw [text_eq]
  simp only [List.forall_mem_append, List.forall_mem_cons]
  refine ⟨fun c hc => visible_of_isPlain (isPlain_scheme h.standard c hc), by decide,
    ⟨fun c hc => ?_, ?_⟩, ?_⟩
  · rcases h.isPlain_body c hc with hc | rfl
    · exact visible_of_isPlain hc
    · decide
  · exact forall_mem_partText (by decide) fun q hq c hc => (visible_of_query (h.query q hq c hc)).1
  · exact forall_mem_partText (by decide) fun f hf c hc =>
      visible_of_fragment (h.fragment f hf c hc)

/-- A part that is kept is read as it is. -/
theorem read_partText {set : Char → Bool} {sign : Char} {part : Option (List Char)}
    (h : ∀ s ∈ part, ∀ c ∈ s, set c = false) :
    (if (partText sign part).isEmpty then none
      else some (Percent.encode set ((partText sign part).drop 1))) = part := by
  cases part with
  | none => rfl
  | some s => exact congrArg some (Percent.encode_eq_self (h s rfl))

theorem Kept.ofText_text (h : u.Kept) : ofText u.text = .ok u := by
  have hbody : ∀ c ∈ u.bodyText, c ≠ '#' ∧ c ≠ '?' := by
    intro c hc
    rcases h.isPlain_body c hc with hc | rfl
    · exact ⟨ne_of_isPlain hc (by decide), ne_of_isPlain hc (by decide)⟩
    · decide
  have hfragment : spanTo (· == '#') (u.bodyText ++ partText '?' u.query ++
      partText '#' u.fragment) = (u.bodyText ++ partText '?' u.query, partText '#' u.fragment) := by
    refine spanTo_append (List.forall_mem_append.2 ⟨fun c hc => ?_, ?_⟩) head?_partText
    · simpa using (hbody c hc).1
    · exact forall_mem_partText (by decide) fun q hq c hc => by
        simpa using (visible_of_query (h.query q hq c hc)).2
  have hquery : spanTo (· == '?') (u.bodyText ++ partText '?' u.query) =
      (u.bodyText, partText '?' u.query) :=
    spanTo_append (fun c hc => by simpa using (hbody c hc).2) head?_partText
  unfold ofText
  rw [clean_eq_self h.visible, text_eq, readScheme?_append h.standard]
  dsimp only
  rw [hfragment]
  dsimp only
  rw [hquery]
  dsimp only
  rw [h.readBody_bodyText, isSpecialScheme_of_defaultPort? h.standard, if_pos rfl,
    read_partText h.query, read_partText h.fragment]
  rfl

/-- A part as it is read. -/
theorem set_of_mem_part {set : Char → Bool} (hsigns : Percent.signs.all (!set ·) = true)
    {s t : List Char} (h : t ∈ (if s.isEmpty then none else some (Percent.encode set (s.drop 1)))) :
    ∀ c ∈ t, set c = false := by
  split_ifs at h
  · cases h
  · cases h
    exact fun c => Percent.set_of_mem_encode hsigns

theorem kept_of_readBody {s : List Char} {followed : Bool} {authority : Option Authority}
    {path : UrlPath} (h : readBody scheme s followed = .ok (authority, path))
    (hstandard : (defaultPort? scheme).isSome = true) :
    (∃ a, authority = some a ∧ a.Kept scheme) ∧ ∃ ss, path = .segments ss ∧ IsPath ss := by
  have hspecial := isSpecialScheme_of_defaultPort? hstandard
  unfold readBody at h
  dsimp only at h
  rw [not_isFileScheme_of_defaultPort? hstandard, hspecial, if_neg Bool.false_ne_true,
    if_pos rfl] at h
  obtain ⟨⟨a, p⟩, hread, h⟩ := Except.bind_eq_ok_iff.1 h
  cases h
  unfold readHierarchy at hread
  dsimp only at hread
  obtain ⟨a', ha, hread⟩ := Except.bind_eq_ok_iff.1 hread
  rw [hspecial, Bool.not_true, Bool.and_false, if_neg Bool.false_ne_true] at hread
  cases hread
  refine ⟨⟨a, rfl, Authority.kept_of_ofText ha hspecial⟩, _, rfl, isPath_readSegments fun hc => ?_⟩
  have hslashed := (List.dropWhile_sublist _).subset ((List.dropWhile_sublist _).subset hc)
  obtain ⟨c, -, hc⟩ := List.mem_map.1 hslashed
  split_ifs at hc with hne
  · cases hc
  · exact hne hc

theorem kept_of_ofText {s : List Char} (h : ofText s = .ok u)
    (hstandard : (defaultPort? u.scheme).isSome = true) : u.Kept := by
  unfold ofText at h
  split at h
  · cases h
  dsimp only at h
  obtain ⟨⟨authority, path⟩, hbody, h⟩ := Except.bind_eq_ok_iff.1 h
  cases h
  obtain ⟨hauthority, hpath⟩ := kept_of_readBody hbody hstandard
  refine ⟨hstandard, hauthority, hpath, fun q hq => ?_, fun f hf => ?_⟩
  · rw [isSpecialScheme_of_defaultPort? hstandard, if_pos rfl] at hq
    exact set_of_mem_part (by decide) hq
  · exact set_of_mem_part (by decide) hf

end Url

end Mockup.Network
