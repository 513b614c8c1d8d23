import Mathlib.Tactic.SplitIfs
import Mockup.Proofs.CommandLine.Argument
import Mockup.Proofs.Except

/-! Where the settings of a command line come from: each from its switch, and without one from its
variable in the environment, if that is set. -/

namespace Mockup.CommandLine

open Network

/-! ### Values -/

/-- What the text of a setting is read as. -/
inductive Reading where
  | path (path : String)
  | address (address : SocketAddress)
  | url (url : Url)

/-- What a text is read as for a switch. -/
def Switch.reading? : Switch → String → Option Reading
  | .config, v => if v.isEmpty then none else some (.path v)
  | .listen, v => (SocketAddress.ofText? v.toList).map .address
  | .baseUrl, v => (Url.ofText v.toList).toOption.map .url
  | .help, _ => none

theorem Switch.reading?_config_eq_some_iff {v : String} {x : Reading} :
    Switch.config.reading? v = some x ↔ v ≠ "" ∧ x = .path v := by
  simp only [reading?, Option.ite_none_left_eq_some, String.isEmpty_iff, Option.some.injEq, ne_eq,
    @eq_comm _ x]

/-- What a switch is set to. -/
def Overrides.get (o : Overrides) : Switch → Option Reading
  | .config => o.config.map .path
  | .listen => o.listen.map .address
  | .baseUrl => o.baseUrl.map .url
  | .help => none

/-- The setting is what the text is read as. -/
def Overrides.Reads (o : Overrides) (s : Switch) (value : String) : Prop :=
  ∃ x, s.reading? value = some x ∧ o.get s = some x

namespace Progress

variable {p q : Progress} {s : Switch} {value : String} {done rest : List String}

/-- The switch had no value before, and has this one now. Nothing else changes. -/
structure Takes (p : Progress) (s : Switch) (value : String) (q : Progress) : Prop where
  fresh : s ∉ p.given
  given_eq : q.given = p.given ++ [s]
  pending_eq : q.pending = p.pending
  trailing_eq : q.trailing = p.trailing
  reads : q.overrides.Reads s value
  get_eq : ∀ s', s' ≠ s → q.overrides.get s' = p.overrides.get s'

theorem takes_of_take (hs : s ≠ .help) (h : p.take s value = .ok q) : p.Takes s value q := by
  unfold take at h
  cases hfresh : p.given.contains s with
  | true =>
    rw [hfresh, if_pos rfl] at h
    cases h
  | false =>
    rw [hfresh, if_neg Bool.false_ne_true] at h
    have hfresh : s ∉ p.given := by simpa using hfresh
    cases s with
    | config =>
      dsimp only at h
      split at h
      · cases h
      · rename_i hempty
        cases h
        exact ⟨hfresh, rfl, rfl, rfl, ⟨_, if_neg hempty, rfl⟩, fun s' hne => by cases s' <;> trivial⟩
    | listen =>
      dsimp only at h
      split at h
      · rename_i a ha
        cases h
        refine ⟨hfresh, rfl, rfl, rfl, ⟨.address a, ?_, rfl⟩, fun s' hne => by cases s' <;> trivial⟩
        rw [Switch.reading?, ha]
        rfl
      · cases h
    | baseUrl =>
      dsimp only at h
      split at h
      · rename_i u hu
        cases h
        refine ⟨hfresh, rfl, rfl, rfl, ⟨.url u, ?_, rfl⟩, fun s' hne => by cases s' <;> trivial⟩
        rw [Switch.reading?, hu]
        rfl
      · cases h
    | help => exact absurd rfl hs

/-! ### One argument -/

theorem ne_help_of_switch {v : Option String} (h : p.switch s v = .ok (some q)) : s ≠ .help := by
  rintro rfl
  obtain ⟨p', -, h⟩ := Except.bind_eq_ok_iff.1 h
  cases h

theorem switch_of_longSwitch {r : List Char} (h : p.longSwitch r = .ok (some q)) :
    ∃ s v, named? ('-' :: '-' :: r) = some (s, v) ∧ p.switch s v = .ok (some q) := by
  unfold longSwitch at h
  dsimp only at h
  split at h
  · cases h
  · rename_i s hs
    split at h
    · cases h
    · refine ⟨s, _, ?_, h⟩
      rw [named?, hs]
      rfl

theorem switch_of_shortSwitch {c : Char} {r : List Char}
    (h : p.shortSwitch c r = .ok (some q)) :
    ∃ s v, named? ('-' :: c :: r) = some (s, v) ∧ p.switch s v = .ok (some q) := by
  unfold shortSwitch at h
  split at h
  · cases h
  · rename_i s hs
    exact ⟨s, _, named?_short (short?_of_ofShort? hs) r, h⟩

theorem pending_of_plain (h : p.plain value = .ok (some q)) :
    ∃ s, p.pending = some (s, none) ∧ q = { p with pending := some (s, some value) } := by
  unfold plain at h
  split at h
  · rename_i s _ hpending
    cases h
    exact ⟨s, hpending, rfl⟩
  · cases h

theorem not_plain_of_trailing (ht : p.trailing = true) : p.step value ≠ .ok (some q) := by
  unfold step plain
  rw [ht]
  exact nofun

/-- What an argument may be: the end of the switches, one of them, or the value of the one before
it. -/
theorem step_cases {argument : String} (ht : p.trailing = false)
    (h : p.step argument = .ok (some q)) :
    (argument.toList = ['-', '-'] ∧ q = { p with trailing := true }) ∨
      (∃ s v, s ≠ .help ∧ Calls s argument.toList v ∧ p.switch s v = .ok (some q)) ∨
      (∀ s v, ¬ Calls s argument.toList v) ∧
        ∃ s, p.pending = some (s, none) ∧ q = { p with pending := some (s, some argument) } := by
  unfold step at h
  rw [ht, if_neg Bool.false_ne_true] at h
  split at h
  · cases h
    exact .inl ⟨‹_›, rfl⟩
  · rename_i r hne hlist
    obtain ⟨s, v, hname, hswitch⟩ := switch_of_longSwitch h
    rw [hlist]
    exact .inr (.inl ⟨s, v, ne_help_of_switch hswitch, calls_iff.2 hname, hswitch⟩)
  · rename_i c r _ hne hlist
    obtain ⟨s, v, hname, hswitch⟩ := switch_of_shortSwitch h
    rw [hlist]
    exact .inr (.inl ⟨s, v, ne_help_of_switch hswitch, calls_iff.2 hname, hswitch⟩)
  · rename_i hlong hshort
    refine .inr (.inr ⟨fun s v hcalls => ?_, pending_of_plain h⟩)
    rw [calls_iff] at hcalls
    unfold named? at hcalls
    split at hcalls
    · exact hlong _ ‹_›
    · exact hshort _ _ ‹_›
    · cases hcalls

/-! ### All arguments -/

/-- What is known of a command line: the switches that were given, and that they are set as they
were given. -/
structure Settled (done : List String) (p : Progress) : Prop where
  given : ∀ s v, Gives done s v → s ∈ p.given ∧ p.overrides.Reads s v
  sound : ∀ s ∈ p.given, ∃ v, Gives done s v
  lacks : ∀ s, s ∉ p.given → p.overrides.get s = none

/-- What is known on the way. The last switch may still wait for its value, or may have it but not
be set. -/
structure Tracks (done : List String) (p : Progress) : Prop where
  given : ∀ s v, Gives done s v →
    (s ∈ p.given ∧ p.overrides.Reads s v) ∨ p.pending = some (s, some v)
  sound : ∀ s ∈ p.given, ∃ v, Gives done s v
  lacks : ∀ s, s ∉ p.given → p.overrides.get s = none
  waits : ∀ s, p.pending = some (s, none) ↔ Waits done s
  valued : ∀ s v, p.pending = some (s, some v) → Gives done s v
  ne_help : ∀ s v, p.pending = some (s, v) → s ≠ .help

theorem tracks_nil : Tracks [] {} where
  given s v h := by
    cases h with
    | joined ha _ => cases ha
    | apart ha _ => cases List.infix_nil.1 ha
  sound _ h := (nomatch h)
  lacks s _ := by cases s <;> rfl
  waits s := iff_of_false nofun fun ⟨a, ha, _⟩ => (nomatch ha)
  valued _ _ h := (nomatch h)
  ne_help _ _ h := (nomatch h)

theorem sound_concat {argument : String} (h : ∀ s ∈ p.given, ∃ v, Gives done s v) :
    ∀ s ∈ p.given, ∃ v, Gives (done ++ [argument]) s v := fun s hmem => by
  obtain ⟨v, hv⟩ := h s hmem
  exact ⟨v, gives_concat.2 (.inl hv)⟩

/-- A switch that gets its value settles a command line on which only this value was not settled. -/
theorem settled_of_takes (ht : p.Takes s value q)
    (hgiven : ∀ s' v, Gives done s' v →
      (s' ∈ p.given ∧ p.overrides.Reads s' v) ∨ s' = s ∧ v = value)
    (hsound : ∀ s' ∈ p.given, ∃ v, Gives done s' v)
    (hlacks : ∀ s', s' ∉ p.given → p.overrides.get s' = none) (hvalue : Gives done s value) :
    Settled done q where
  given s' v hgives := by
    rw [ht.given_eq]
    obtain ⟨hmem, x, hx, hget⟩ | ⟨rfl, rfl⟩ := hgiven s' v hgives
    · have hne : s' ≠ s := fun heq => ht.fresh (heq ▸ hmem)
      exact ⟨List.mem_append_left _ hmem, x, hx, (ht.get_eq s' hne).trans hget⟩
    · exact ⟨List.mem_append_right _ List.mem_cons_self, ht.reads⟩
  sound s' hmem := by
    rw [ht.given_eq] at hmem
    obtain hmem | hmem := List.mem_append.1 hmem
    · exact hsound s' hmem
    · rw [List.mem_singleton] at hmem
      exact ⟨value, hmem ▸ hvalue⟩
  lacks s' hmem := by
    rw [ht.given_eq, List.mem_append, List.mem_singleton, not_or] at hmem
    rw [ht.get_eq s' hmem.2, hlacks s' hmem.1]

theorem Tracks.settle (h : Tracks done p) (hp : p.settle = .ok q) :
    Settled done q ∧ q.pending = none ∧ q.trailing = p.trailing ∧ ∀ s, ¬ Waits done s := by
  unfold Progress.settle at hp
  split at hp
  · rename_i hnone
    cases hp
    refine ⟨⟨fun s v hv => ?_, h.sound, h.lacks⟩, hnone, rfl, fun s hs => ?_⟩
    · exact (h.given s v hv).resolve_right (by rw [hnone]; exact nofun)
    · have := (h.waits s).2 hs
      rw [hnone] at this
      cases this
  · cases hp
  · rename_i s v hpending
    have ht := takes_of_take (h.ne_help s _ hpending) hp
    refine ⟨settled_of_takes ht (fun s' v' hv' => ?_) h.sound h.lacks (h.valued s v hpending),
      ht.pending_eq, ht.trailing_eq, fun s' hs' => ?_⟩
    · refine (h.given s' v' hv').imp id fun heq => ?_
      cases hpending.symm.trans heq
      exact ⟨rfl, rfl⟩
    · have := (h.waits s').2 hs'
      rw [hpending] at this
      cases this

section Switch

variable {argument : String} (hdone : Settled done p) (hpending : p.pending = none)
  (hwaits : ∀ s, ¬ Waits done s)

include hdone hwaits

/-- A switch alone waits for its value. -/
theorem Settled.tracks_alone (hs : s ≠ .help) (hcalls : Calls s argument.toList none) :
    Tracks (done ++ [argument]) { p with pending := some (s, none) } where
  given s' v hgives := by
    obtain hgives | hv | ⟨-, hw⟩ := gives_concat.1 hgives
    · exact .inl (hdone.given s' v hgives)
    · cases (hcalls.unique hv).2
    · exact absurd hw (hwaits s')
  sound := sound_concat hdone.sound
  lacks := hdone.lacks
  waits s' := by
    rw [waits_concat]
    constructor
    · rintro ⟨⟩
      exact hcalls
    · intro h
      rw [(hcalls.unique h).1]
  valued _ _ h := by cases h
  ne_help s' v h := by
    cases h
    exact hs

include hpending in
/-- A switch with its value is set at once. -/
theorem Settled.tracks_with (hcalls : Calls s argument.toList (some value))
    (ht : p.Takes s value q) : Tracks (done ++ [argument]) q := by
  have hnone : q.pending = none := ht.pending_eq.trans hpending
  have hsettled : Settled (done ++ [argument]) q := by
    refine settled_of_takes ht (fun s' v hgives => ?_) (sound_concat hdone.sound) hdone.lacks
      (gives_concat.2 (.inr (.inl hcalls)))
    obtain hgives | hv | ⟨-, hw⟩ := gives_concat.1 hgives
    · exact .inl (hdone.given s' v hgives)
    · obtain ⟨rfl, heq⟩ := hcalls.unique hv
      exact .inr ⟨rfl, (Option.some.inj heq).symm⟩
    · exact absurd hw (hwaits s')
  obtain ⟨hgiven, hsound, hlacks⟩ := hsettled
  refine ⟨fun s' v hgives => .inl (hgiven s' v hgives), hsound, hlacks, fun s' => ?_,
    fun s' v h => ?_, fun s' v h => ?_⟩
  · rw [waits_concat, hnone]
    exact iff_of_false nofun fun h => (nomatch (hcalls.unique h).2)
  · rw [hnone] at h
    cases h
  · rw [hnone] at h
    cases h

end Switch

/-- The argument behind a switch that waits is its value. -/
theorem Tracks.plain {argument : String} (h : Tracks done p)
    (hcalls : ∀ s v, ¬ Calls s argument.toList v) (hp : p.pending = some (s, none)) :
    Tracks (done ++ [argument]) { p with pending := some (s, some argument) } where
  given s' v hgives := by
    obtain hgives | hv | ⟨rfl, hw⟩ := gives_concat.1 hgives
    · refine .inl ((h.given s' v hgives).resolve_right ?_)
      rw [hp]
      exact nofun
    · exact absurd hv (hcalls s' _)
    · cases hp.symm.trans ((h.waits s').2 hw)
      exact .inr rfl
  sound := sound_concat h.sound
  lacks := h.lacks
  waits s' := by
    rw [waits_concat]
    exact iff_of_false nofun (hcalls s' _)
  valued s' v heq := by
    cases heq
    exact gives_concat.2 (.inr (.inr ⟨rfl, (h.waits s).1 hp⟩))
  ne_help s' v heq := by
    cases heq
    exact h.ne_help s none hp

theorem Tracks.switch {argument : String} {v : Option String} (h : Tracks done p) (hs : s ≠ .help)
    (hcalls : Calls s argument.toList v) (hp : p.switch s v = .ok (some q)) :
    Tracks (done ++ [argument]) q ∧ q.trailing = p.trailing := by
  obtain ⟨p', hsettle, hp⟩ := Except.bind_eq_ok_iff.1 hp
  obtain ⟨hdone, hpending, htrailing, hwaits⟩ := h.settle hsettle
  rw [if_neg hs] at hp
  cases v with
  | none =>
    cases hp
    exact ⟨hdone.tracks_alone hwaits hs hcalls, htrailing⟩
  | some value =>
    obtain ⟨q', htake, hp⟩ := Except.bind_eq_ok_iff.1 hp
    cases hp
    have ht := takes_of_take hs htake
    exact ⟨hdone.tracks_with hpending hwaits hcalls ht, ht.trailing_eq.trans htrailing⟩

theorem not_calls_hyphens (s : Switch) (v : Option String) : ¬ Calls s ['-', '-'] v := by
  rw [calls_iff]
  exact nofun

/-- The end of the switches gives nothing, and no switch may wait there. -/
theorem Settled.hyphens (h : Settled done p) (hwaits : ∀ s, ¬ Waits done s) {argument : String}
    (ha : argument.toList = ['-', '-']) : Settled (done ++ [argument]) p where
  given s v hgives := by
    obtain hgives | hv | ⟨-, hw⟩ := gives_concat.1 hgives
    · exact h.given s v hgives
    · exact absurd (ha ▸ hv) (not_calls_hyphens s _)
    · exact absurd hw (hwaits s)
  sound := sound_concat h.sound
  lacks := h.lacks

/-- By induction on the arguments that are left: one more of them is known. Behind the end of the
switches there are none. -/
theorem Tracks.steps (h : Tracks done p) (ht : p.trailing = false)
    (hp : p.steps rest = .ok (some q)) : Settled (done ++ rest) q := by
  induction rest generalizing done p with
  | nil =>
    obtain ⟨q', hsettle, hq⟩ := Except.map_eq_ok_iff.1 hp
    cases hq
    rw [List.append_nil]
    exact (h.settle hsettle).1
  | cons argument rest ih =>
    obtain ⟨p', hstep, hp⟩ := Except.bind_eq_ok_iff.1 hp
    cases p' with
    | none => cases hp
    | some p' =>
      rw [← List.singleton_append, ← List.append_assoc]
      obtain ⟨ha, rfl⟩ | ⟨s, v, hs, hcalls, hswitch⟩ | ⟨hcalls, s, hpending, rfl⟩ :=
        step_cases ht hstep
      · have hended : Tracks done { p with trailing := true } :=
          ⟨h.given, h.sound, h.lacks, h.waits, h.valued, h.ne_help⟩
        cases rest with
        | nil =>
          obtain ⟨q', hsettle, hq⟩ := Except.map_eq_ok_iff.1 hp
          cases hq
          obtain ⟨hdone, -, -, hwaits⟩ := hended.settle hsettle
          rw [List.append_nil]
          exact hdone.hyphens hwaits ha
        | cons next rest =>
          obtain ⟨p'', hnext, hp⟩ := Except.bind_eq_ok_iff.1 hp
          cases p'' with
          | none => cases hp
          | some p'' => exact absurd hnext (not_plain_of_trailing rfl)
      · obtain ⟨htracks, htrailing⟩ := h.switch hs hcalls hswitch
        exact ih htracks (htrailing.trans ht) hp
      · exact ih (h.plain hcalls hpending) ht hp

/-! ### The environment -/

variable {environment : String → Option String}

/-- What the environment makes of a setting that was not given. -/
def fill (environment : String → Option String) (p : Progress) (s : Switch) :
    Except UsageError Progress :=
  if p.given.contains s then .ok p
  else match s.envVariable?.bind environment with
    | some value => p.take s value
    | none => .ok p

theorem complete_eq (environment : String → Option String) (p : Progress) :
    p.complete environment =
      Switch.settings.foldlM (fill environment) { p with pending := none } := rfl

/-- A setting that was given stays as it is. Another one is that of its variable. -/
structure Filled (environment : String → Option String) (p : Progress) (l : List Switch)
    (q : Progress) : Prop where
  given : ∀ s ∈ p.given, q.overrides.get s = p.overrides.get s
  filled : ∀ s ∈ l, s ∉ p.given → ∀ v, s.envVariable?.bind environment = some v →
    q.overrides.Reads s v
  unset : ∀ s, s ∉ p.given → (s ∈ l → s.envVariable?.bind environment = none) →
    q.overrides.get s = p.overrides.get s

/-- One more setting that the environment leaves alone. -/
theorem Filled.keep {l : List Switch} (h : Filled environment p l q)
    (hs : s ∉ p.given → s.envVariable?.bind environment = none) :
    Filled environment p (s :: l) q where
  given := h.given
  filled s' hmem hgiven v hv := by
    obtain rfl | hmem := List.mem_cons.1 hmem
    · cases (hs hgiven).symm.trans hv
    · exact h.filled s' hmem hgiven v hv
  unset s' hgiven hnone := h.unset s' hgiven fun hmem => hnone (List.mem_cons_of_mem s hmem)

/-- One more setting that the environment sets. -/
theorem Filled.take {p' : Progress} {l : List Switch} (h : Filled environment p' l q)
    (hl : s ∉ l) (hv : s.envVariable?.bind environment = some value) (ht : p.Takes s value p') :
    Filled environment p (s :: l) q where
  given s' hgiven := by
    have hgiven' : s' ∈ p'.given := ht.given_eq ▸ List.mem_append_left _ hgiven
    have hne : s' ≠ s := fun heq => ht.fresh (heq ▸ hgiven)
    rw [h.given s' hgiven', ht.get_eq s' hne]
  filled s' hmem hgiven v hv' := by
    by_cases hs : s' = s
    · subst hs
      cases hv.symm.trans hv'
      obtain ⟨x, hx, hget⟩ := ht.reads
      have hgiven' : s' ∈ p'.given := ht.given_eq ▸ List.mem_append_right _ List.mem_cons_self
      exact ⟨x, hx, (h.given s' hgiven').trans hget⟩
    · have hmem := (List.mem_cons.1 hmem).resolve_left hs
      refine h.filled s' hmem ?_ v hv'
      rw [ht.given_eq, List.mem_append, List.mem_singleton]
      exact fun hor => hor.elim hgiven hs
  unset s' hgiven hnone := by
    have hs : s' ≠ s := by
      rintro rfl
      cases (hnone List.mem_cons_self).symm.trans hv
    have hgiven' : s' ∉ p'.given := by
      rw [ht.given_eq, List.mem_append, List.mem_singleton]
      exact fun hor => hor.elim hgiven hs
    rw [h.unset s' hgiven' fun hmem => hnone (List.mem_cons_of_mem s hmem), ht.get_eq s' hs]

/-- By induction on the settings: each of them is filled in, if it was not given. -/
theorem filled_of_foldlM {l : List Switch} (hl : l.Nodup) (hhelp : Switch.help ∉ l)
    (h : l.foldlM (fill environment) p = .ok q) : Filled environment p l q := by
  induction l generalizing p with
  | nil =>
    cases h
    exact ⟨fun _ _ => rfl, fun _ h => (nomatch h), fun _ _ _ => rfl⟩
  | cons s l ih =>
    rw [List.foldlM_cons] at h
    obtain ⟨p', hfill, h⟩ := Except.bind_eq_ok_iff.1 h
    rw [List.nodup_cons] at hl
    rw [List.mem_cons, not_or] at hhelp
    have hrest := ih hl.2 hhelp.2 h
    unfold fill at hfill
    split at hfill
    · rename_i hgiven
      cases hfill
      exact hrest.keep fun hs => absurd (by simpa using hgiven) hs
    · split at hfill
      · rename_i value hvalue
        exact hrest.take hl.1 hvalue (takes_of_take (Ne.symm hhelp.1) hfill)
      · rename_i hnone
        cases hfill
        exact hrest.keep fun _ => hnone

end Progress

/-! ### A command line and its environment -/

variable {environment : String → Option String} {arguments : List String} {o : Overrides}

/-- The text that a setting comes from: the value that its switch is given, or else the variable of
the environment, if that is set. -/
inductive SetBy (environment : String → Option String) (arguments : List String) (s : Switch) :
    Option String → Prop where
  | switch {value : String} (h : Gives arguments s value) :
    SetBy environment arguments s (some value)
  | fallback (h : ∀ value, ¬ Gives arguments s value) :
    SetBy environment arguments s (s.envVariable?.bind environment)

/-- Each setting comes from some text, or from none. -/
theorem exists_setBy (environment : String → Option String) (arguments : List String) (s : Switch) :
    ∃ t, SetBy environment arguments s t := by
  by_cases h : ∃ value, Gives arguments s value
  · obtain ⟨value, h⟩ := h
    exact ⟨_, .switch h⟩
  · exact ⟨_, .fallback fun value hvalue => h ⟨value, hvalue⟩⟩

/-- The setting is read from this text, or is not there. -/
def Overrides.Holds (o : Overrides) (s : Switch) : Option String → Prop
  | some value => o.Reads s value
  | none => o.get s = none

/-- The settings of a command line that is understood come from its switches, and where these are
not given from the environment. -/
theorem read_holds (h : read environment arguments = .ok (.run o)) {s : Switch} (hs : s ≠ .help)
    {t : Option String} (ht : SetBy environment arguments s t) : o.Holds s t := by
  obtain ⟨p, hsteps, h⟩ := Except.bind_eq_ok_iff.1 h
  cases p with
  | none => cases h
  | some p =>
    obtain ⟨q, hcomplete, h⟩ := Except.bind_eq_ok_iff.1 h
    cases h
    have hp := Progress.tracks_nil.steps rfl hsteps
    rw [List.nil_append] at hp
    rw [Progress.complete_eq] at hcomplete
    have hq := Progress.filled_of_foldlM (by decide) (by decide) hcomplete
    cases ht with
    | switch hgives =>
      obtain ⟨hgiven, x, hx, hget⟩ := hp.given s _ hgives
      exact ⟨x, hx, (hq.given s hgiven).trans hget⟩
    | fallback hnone =>
      have hgiven : s ∉ p.given := fun hmem => by
        obtain ⟨v, hv⟩ := hp.sound s hmem
        exact hnone v hv
      cases hvariable : s.envVariable?.bind environment with
      | some v =>
        have hmem : s ∈ Switch.settings := by
          cases s <;> first | decide | exact absurd rfl hs
        exact hq.filled s hmem hgiven v hvariable
      | none => exact (hq.unset s hgiven fun _ => hvariable).trans (hp.lacks s hgiven)

theorem exists_reading_of_read (h : read environment arguments = .ok (.run o)) {s : Switch}
    (hs : s ≠ .help) {x : Reading} (hx : o.get s = some x) : ∃ value, s.reading? value = some x := by
  obtain ⟨t, ht⟩ := exists_setBy environment arguments s
  have hholds := read_holds h hs ht
  cases t with
  | none => cases hx.symm.trans hholds
  | some value =>
    obtain ⟨y, hy, hget⟩ := hholds
    exact ⟨value, hy.trans (hget.symm.trans hx)⟩

/-- Every setting was read. -/
structure Overrides.AreRead (o : Overrides) : Prop where
  config : ∀ path ∈ o.config, path ≠ ""
  listen : ∀ a ∈ o.listen, ∃ s, SocketAddress.ofText? s = some a
  baseUrl : ∀ u ∈ o.baseUrl, ∃ s, Url.ofText s = .ok u

/-- Whatever the command line and the environment are, no setting is made up. -/
theorem read_areRead (h : read environment arguments = .ok (.run o)) : o.AreRead where
  config path hpath := by
    obtain ⟨value, hvalue⟩ :=
      exists_reading_of_read h (s := .config) nofun (Option.map_eq_some_iff.2 ⟨_, hpath, rfl⟩)
    obtain ⟨hne, heq⟩ := Switch.reading?_config_eq_some_iff.1 hvalue
    cases heq
    exact hne
  listen a ha := by
    obtain ⟨value, hvalue⟩ :=
      exists_reading_of_read h (s := .listen) nofun (Option.map_eq_some_iff.2 ⟨_, ha, rfl⟩)
    obtain ⟨a', ha', heq⟩ := Option.map_eq_some_iff.1 hvalue
    cases heq
    exact ⟨_, ha'⟩
  baseUrl u hu := by
    obtain ⟨value, hvalue⟩ :=
      exists_reading_of_read h (s := .baseUrl) nofun (Option.map_eq_some_iff.2 ⟨_, hu, rfl⟩)
    obtain ⟨u', hu', heq⟩ := Option.map_eq_some_iff.1 hvalue
    cases heq
    exact ⟨_, Except.toOption_eq_some_iff.1 hu'⟩

end Mockup.CommandLine
