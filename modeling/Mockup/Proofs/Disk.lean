import Mathlib.Data.List.Basic
import Mathlib.Tactic.SplitIfs
import Mockup.Disk
import Mockup.Proofs.Except
import Mockup.Proofs.Text.Words

/-! What writing and removing leave of a disk. A path that leads to a place keeps leading to it as
long as no directory goes away. -/

namespace Mockup.Disk

variable {d d' : Disk} {p q : Place} {path : String}

/-- The bytes of the file at a place. -/
def file? (d : Disk) (p : Place) : Option Bytes :=
  match d.entry? p with
  | some (.file content) => some content
  | _ => none

theorem file?_eq_some_iff {content : Bytes} :
    d.file? p = some content ↔ d.entry? p = some (.file content) := by
  unfold file?
  split
  · next h => simp [h]
  · next h => simpa using fun h' => h content h'

/-- An empty disk holds no files. -/
theorem file?_of_entries_nil (h : d.entries = []) : d.file? p = none := by
  unfold file? entry?
  rw [h]
  split_ifs <;> rfl

/-! ### Paths -/

theorem names_append_slash (a b : List Char) :
    names (String.ofList (a ++ '/' :: b)) = names (.ofList a) ++ names (.ofList b) := by
  simp only [names, String.toList_ofList, List.splitOn_append_cons_self, List.filter_append,
    List.map_append]

theorem names_of_notMem {name : String} (h : '/' ∉ name.toList) (hn : name ≠ "") :
    names name = [name] := by
  have hne : name.toList ≠ [] := fun h' => hn (String.toList_eq_nil_iff.1 h')
  simp [names, List.splitOn_eq_singleton h, hne]

/-- A name in a directory comes after the names of the directory. -/
theorem names_join {dir name : String} (h : '/' ∉ name.toList) (hn : name ≠ "") :
    names (join dir name) = names dir ++ [name] := by
  have hempty : names (.ofList []) = [] := rfl
  unfold join
  split_ifs with hdir
  · rw [Bool.or_eq_true, decide_eq_true_iff] at hdir
    rcases hdir with hdir | hdir
    · rw [String.isEmpty_iff.1 hdir, String.empty_append, names_of_notMem h hn]
      rfl
    · -- the slash at the end of the directory leaves an empty name, which is dropped
      obtain ⟨s, hs⟩ := List.getLast?_eq_some_iff.1 hdir
      have hdir : dir = .ofList (s ++ ['/']) := by rw [← hs, String.ofList_toList]
      have hjoin : dir ++ name = .ofList (s ++ '/' :: name.toList) := by
        rw [← String.toList_inj, String.toList_append, hs]
        simp
      rw [hjoin, names_append_slash, hdir, names_append_slash, hempty, List.append_nil,
        String.ofList_toList, names_of_notMem h hn]
  · have hjoin : dir ++ "/" ++ name = .ofList (dir.toList ++ '/' :: name.toList) := by
      rw [← String.toList_inj]
      simp
    rw [hjoin, names_append_slash, String.ofList_toList, String.ofList_toList,
      names_of_notMem h hn]

theorem toList_join (dir name : String) : ∃ s, (join dir name).toList = s ++ name.toList ∧
    (dir ≠ "" → s.head? = dir.toList.head?) ∧ (dir = "" → s = []) := by
  unfold join
  split_ifs
  · refine ⟨dir.toList, String.toList_append, fun _ => rfl, ?_⟩
    rintro rfl
    rfl
  · refine ⟨dir.toList ++ ['/'], by simp, fun hdir => ?_, ?_⟩
    · obtain ⟨c, s, hs⟩ := List.exists_cons_of_ne_nil (mt String.toList_eq_nil_iff.1 hdir)
      rw [hs]
      rfl
    · rintro rfl
      contradiction

theorem getLast?_join {name : String} (dir : String) (hn : name ≠ "") :
    (join dir name).toList.getLast? = name.toList.getLast? := by
  obtain ⟨s, hs, -⟩ := toList_join dir name
  rw [hs, List.getLast?_append_of_ne_nil _ (mt String.toList_eq_nil_iff.1 hn)]

theorem getLast?_join_ne_slash {name : String} (dir : String) (h : '/' ∉ name.toList)
    (hn : name ≠ "") : (join dir name).toList.getLast? ≠ some '/' := by
  rw [getLast?_join dir hn]
  exact fun hlast => h (List.mem_of_getLast? hlast)

theorem origin_join (d : Disk) {name : String} (dir : String) (h : '/' ∉ name.toList) :
    d.origin (join dir name) = d.origin dir := by
  obtain ⟨s, hs, hcons, hnil⟩ := toList_join dir name
  unfold origin
  rw [hs]
  by_cases hdir : dir = ""
  · have hhead : name.toList.head? ≠ some '/' := fun hh => h (List.mem_of_mem_head? hh)
    rw [hnil hdir, hdir, List.nil_append, if_neg hhead]
    rfl
  · have hne : s ≠ [] := by
      rintro rfl
      have hdir' := hcons hdir
      exact hdir (String.toList_eq_nil_iff.1 (List.head?_eq_none_iff.1 hdir'.symm))
    rw [List.head?_append_of_ne_nil _ hne, hcons hdir]

theorem notMem_of_mem_names {path name : String} (h : name ∈ names path) : '/' ∉ name.toList := by
  obtain ⟨part, hpart, rfl⟩ := List.mem_map.1 h
  rw [String.toList_ofList]
  exact fun hc => (Text.mem_of_mem_splitOn (List.mem_of_mem_filter hpart) hc).2 rfl

/-! ### Entries after a change -/

/-- The root and the working directory stay what they are, so a place that is neither can be
changed. -/
theorem not_above_workplace (h : d.entry? p ≠ some .directory) :
    p.isPrefixOf d.workplace = false := by
  by_contra hp
  rw [Bool.not_eq_false] at hp
  exact h (if_pos hp)

theorem find?_filter_ne (entries : List (Place × DiskEntry)) (h : q ≠ p) :
    (entries.filter (·.1 != p)).find? (·.1 == q) = entries.find? (·.1 == q) := by
  rw [List.find?_filter]
  congr 1
  funext x
  by_cases hx : x.1 = q
  · simp [hx, h]
  · simp [hx]

theorem find?_filter_self (entries : List (Place × DiskEntry)) (p : Place) :
    (entries.filter (·.1 != p)).find? (·.1 == p) = none := by
  rw [List.find?_eq_none]
  intro x hx
  simpa using (List.mem_filter.1 hx).2

theorem entry?_set (h : d.entry? p ≠ some .directory) (e : DiskEntry) (q : Place) :
    Disk.entry? (d.set p e) q = if q = p then some e else d.entry? q := by
  unfold entry? set
  by_cases hq : q = p
  · subst hq
    simp only [not_above_workplace h, List.find?_append, find?_filter_self]
    simp
  · have hp : ¬ p = q := fun h => hq h.symm
    simp only [List.find?_append, find?_filter_ne _ hq]
    simp [hq, hp]

theorem entry?_erase (h : d.entry? p ≠ some .directory) (q : Place) :
    Disk.entry? (d.erase p) q = if q = p then none else d.entry? q := by
  unfold entry? erase
  by_cases hq : q = p
  · subst hq
    simp only [not_above_workplace h, find?_filter_self]
    simp
  · simp only [find?_filter_ne _ hq]
    simp [hq]

theorem file?_set (h : d.entry? p ≠ some .directory) (content : Bytes) (q : Place) :
    (d.set p (.file content)).file? q = if q = p then some content else d.file? q := by
  unfold file?
  rw [entry?_set h]
  by_cases hq : q = p
  · rw [if_pos hq, if_pos hq]
  · rw [if_neg hq, if_neg hq]

theorem file?_erase (h : d.entry? p ≠ some .directory) (q : Place) :
    (d.erase p).file? q = if q = p then none else d.file? q := by
  unfold file?
  rw [entry?_erase h]
  by_cases hq : q = p
  · rw [if_pos hq, if_pos hq]
  · rw [if_neg hq, if_neg hq]

theorem file?_set_directory (h : d.entry? p = none) (q : Place) :
    (d.set p .directory).file? q = d.file? q := by
  unfold file?
  rw [entry?_set (by simp [h])]
  by_cases hq : q = p
  · rw [if_pos hq, hq, h]
  · rw [if_neg hq]

/-! ### Disks that only grow -/

/-- No directory goes away. -/
structure Grown (d d' : Disk) : Prop where
  workplace_eq : d'.workplace = d.workplace
  directory_kept : ∀ p, d.entry? p = some .directory → d'.entry? p = some .directory

namespace Grown

theorem refl (d : Disk) : Grown d d := ⟨rfl, fun _ h => h⟩

theorem trans {d'' : Disk} (h : Grown d d') (h' : Grown d' d'') : Grown d d'' :=
  ⟨h'.workplace_eq.trans h.workplace_eq, fun p hp => h'.directory_kept p (h.directory_kept p hp)⟩

theorem set (h : d.entry? p ≠ some .directory) (e : DiskEntry) : Grown d (d.set p e) := by
  refine ⟨rfl, fun q hq => ?_⟩
  rw [entry?_set h, if_neg, hq]
  rintro rfl
  exact h hq

theorem erase (h : d.entry? p ≠ some .directory) : Grown d (d.erase p) := by
  refine ⟨rfl, fun q hq => ?_⟩
  rw [entry?_erase h, if_neg, hq]
  rintro rfl
  exact h hq

end Grown

/-! ### Walking -/

/-- Where names lead to from a directory, whatever is there. -/
def resolve : Place → List String → Place
  | at_, [] => at_
  | at_, name :: rest =>
    if name = "." then resolve at_ rest
    else if name = ".." then resolve at_.dropLast rest
    else resolve (at_ ++ [name]) rest

/-- The place that a path of a directory stands for. -/
def placeOf (d : Disk) (path : String) : Place := resolve (d.origin path) (names path)

theorem walk_cons_eq_ok {at_ : Place} {name : String} {rest : List String} :
    d.walk at_ (name :: rest) = .ok q ↔
      if name = "." then d.walk at_ rest = .ok q
      else if name = ".." then d.walk at_.dropLast rest = .ok q
      else name.utf8ByteSize ≤ maxName ∧ d.entry? (at_ ++ [name]) = some .directory ∧
        d.walk (at_ ++ [name]) rest = .ok q := by
  rw [walk]
  split_ifs with hdot hup hlong
  · rfl
  · rfl
  · simp [Nat.not_le.2 hlong]
  · cases h : d.entry? (at_ ++ [name]) with
    | none => simp
    | some e => cases e <;> simp [Nat.not_lt.1 hlong]

theorem walk_eq_resolve {at_ : Place} {ns : List String} (h : d.walk at_ ns = .ok q) :
    q = resolve at_ ns := by
  induction ns generalizing at_ with
  | nil => exact (Except.ok.inj h).symm
  | cons name rest ih =>
    rw [walk_cons_eq_ok] at h
    rw [resolve]
    split_ifs at h ⊢
    · exact ih h
    · exact ih h
    · exact ih h.2.2

theorem Grown.walk (hd : Grown d d') {at_ : Place} {ns : List String}
    (h : d.walk at_ ns = .ok q) : d'.walk at_ ns = .ok q := by
  induction ns generalizing at_ with
  | nil => exact h
  | cons name rest ih =>
    rw [walk_cons_eq_ok] at h ⊢
    split_ifs at h ⊢
    · exact ih h
    · exact ih h
    · exact ⟨h.1, hd.directory_kept _ h.2.1, ih h.2.2⟩

/-! ### What a path leads to -/

/-- The path is understood and names an entry of a directory that is there. -/
structure Leads (d : Disk) (path : String) (dir : Place) (name : String) : Prop where
  no_nul : path.toList.contains (Char.ofNat 0) = false
  nonempty : path.isEmpty = false
  short : path.utf8ByteSize ≤ maxPath
  last_eq : (names path).getLast? = some name
  walk_eq : d.walk (d.origin path) (names path).dropLast = .ok dir
  not_here : name ≠ "."
  not_up : name ≠ ".."
  name_short : name.utf8ByteSize ≤ maxName

namespace Leads

variable {dir : Place} {name : String}

theorem grown (h : Leads d path dir name) (hd : Grown d d') : Leads d' path dir name where
  no_nul := h.no_nul
  nonempty := h.nonempty
  short := h.short
  last_eq := h.last_eq
  walk_eq := by
    rw [origin, hd.workplace_eq]
    exact hd.walk h.walk_eq
  not_here := h.not_here
  not_up := h.not_up
  name_short := h.name_short

/-- A name joined to a directory leads to that name in that directory. -/
theorem of_join {dirPath own : String} (h : Leads d (join dirPath own) dir name)
    (hslash : '/' ∉ own.toList) (hne : own ≠ "") : dir = d.placeOf dirPath ∧ name = own := by
  have hwalk := walk_eq_resolve h.walk_eq
  have hlast := h.last_eq
  rw [names_join hslash hne, List.dropLast_concat, origin_join d dirPath hslash] at hwalk
  rw [names_join hslash hne, List.getLast?_concat] at hlast
  exact ⟨hwalk, (Option.some.inj hlast).symm⟩

theorem locate_eq (h : Leads d path dir name) :
    d.locate path = match d.entry? (dir ++ [name]) with
      | none => .ok (.vacant (dir ++ [name]))
      | some .directory => .ok (.directory (dir ++ [name]))
      | some (.file content) =>
        if path.toList.getLast? = some '/' then .error .notDirectory
        else .ok (.file (dir ++ [name]) content) := by
  unfold locate
  rw [h.no_nul, h.nonempty, h.last_eq, h.walk_eq, if_neg (Nat.not_lt.2 h.short)]
  change d.arrive path dir name = _
  unfold arrive
  exact (if_neg h.not_here).trans ((if_neg h.not_up).trans (if_neg (Nat.not_lt.2 h.name_short)))

theorem locate_file (h : Leads d path dir name) {content : Bytes}
    (he : d.entry? (dir ++ [name]) = some (.file content))
    (hs : path.toList.getLast? ≠ some '/') :
    d.locate path = .ok (.file (dir ++ [name]) content) := by
  rw [h.locate_eq, he]
  exact if_neg hs

end Leads

/-- A path that leads to something leads to a directory, or there by a name in a directory. -/
theorem leads_of_locate {t : Target} (h : d.locate path = .ok t) (ht : ∀ p, t ≠ .directory p) :
    ∃ dir name, Leads d path dir name := by
  unfold locate at h
  split_ifs at h with hnul hempty hlong
  split at h
  · cases h
    exact absurd rfl (ht [])
  next name hlast =>
    obtain ⟨dir, hwalk, h⟩ := Except.bind_eq_ok_iff.1 h
    refine ⟨dir, name, eq_false_of_ne_true hnul, eq_false_of_ne_true hempty, Nat.not_lt.1 hlong,
      hlast, hwalk, ?_, ?_, Nat.not_lt.1 ?_⟩
    · rintro rfl
      cases h
      exact absurd rfl (ht _)
    · rintro rfl
      cases h
      exact absurd rfl (ht _)
    · intro hname
      unfold arrive at h
      split_ifs at h
      · cases h
        exact absurd rfl (ht _)
      · cases h
        exact absurd rfl (ht _)

theorem leads_of_file {content : Bytes} (h : d.locate path = .ok (.file p content)) :
    ∃ dir name, Leads d path dir name ∧ p = dir ++ [name] ∧
      d.entry? p = some (.file content) ∧ path.toList.getLast? ≠ some '/' := by
  obtain ⟨dir, name, hleads⟩ := leads_of_locate h (fun _ h => (nomatch h))
  refine ⟨dir, name, hleads, ?_⟩
  rw [hleads.locate_eq] at h
  split at h
  · cases h
  · cases h
  next he =>
    split_ifs at h with hs
    cases h
    exact ⟨rfl, he, hs⟩

theorem leads_of_vacant (h : d.locate path = .ok (.vacant p)) :
    ∃ dir name, Leads d path dir name ∧ p = dir ++ [name] ∧ d.entry? p = none := by
  obtain ⟨dir, name, hleads⟩ := leads_of_locate h (fun _ h => (nomatch h))
  refine ⟨dir, name, hleads, ?_⟩
  rw [hleads.locate_eq] at h
  split at h
  next he =>
    cases h
    exact ⟨rfl, he⟩
  · cases h
  · split_ifs at h
    cases h

/-! ### Making directories -/

/-- Directories may have come, and nothing else has changed. -/
structure Furnished (d d' : Disk) : Prop extends Grown d d' where
  file?_eq : ∀ p, d'.file? p = d.file? p

namespace Furnished

theorem refl (d : Disk) : Furnished d d := ⟨.refl d, fun _ => rfl⟩

theorem trans {d'' : Disk} (h : Furnished d d') (h' : Furnished d' d'') : Furnished d d'' :=
  ⟨h.toGrown.trans h'.toGrown, fun p => (h'.file?_eq p).trans (h.file?_eq p)⟩

end Furnished

theorem makeDirectory_furnished (h : d.makeDirectory path = .ok d') : Furnished d d' := by
  obtain ⟨t, ht, h⟩ := Except.bind_eq_ok_iff.1 h
  cases t with
  | directory p => cases h
  | file p content => cases h
  | vacant p =>
    obtain ⟨dir, name, -, rfl, he⟩ := leads_of_vacant ht
    cases h
    exact ⟨.set (by simp [he]) _, file?_set_directory he⟩

theorem provideDirectory_furnished (h : d.provideDirectory path = .ok d') : Furnished d d' := by
  unfold provideDirectory at h
  split at h
  next hmake =>
    cases h
    exact makeDirectory_furnished hmake
  next =>
    split_ifs at h
    cases h
    exact .refl d

/-- By induction on the climb to the first directory that is there. -/
theorem makeDirectoriesWithin_furnished {fuel : Nat}
    (h : makeDirectoriesWithin fuel d path = .ok d') : Furnished d d' := by
  induction fuel generalizing d d' path with
  | zero => cases h
  | succ fuel ih =>
    rw [makeDirectoriesWithin] at h
    split_ifs at h with hempty
    · cases h
      exact .refl d
    split at h
    · split at h
      · cases h
      · obtain ⟨e, he, h⟩ := Except.bind_eq_ok_iff.1 h
        exact (ih he).trans (provideDirectory_furnished h)
    · exact provideDirectory_furnished h

theorem makeDirectories_furnished (h : d.makeDirectories path = .ok d') : Furnished d d' :=
  makeDirectoriesWithin_furnished h

/-! ### Writing, reading, removing -/

/-- A file is written to a place that is no directory, and nothing else changes. -/
theorem write_eq_ok {content : Bytes} (h : d.write path content = .ok d') :
    ∃ dir name, Leads d path dir name ∧ path.toList.getLast? ≠ some '/' ∧
      d.entry? (dir ++ [name]) ≠ some .directory ∧ d' = d.set (dir ++ [name]) (.file content) := by
  obtain ⟨t, ht, h⟩ := Except.bind_eq_ok_iff.1 h
  cases t with
  | directory p => cases h
  | file p old =>
    obtain ⟨dir, name, hleads, rfl, he, hs⟩ := leads_of_file ht
    exact ⟨dir, name, hleads, hs, by simp [he], (Except.ok.inj h).symm⟩
  | vacant p =>
    obtain ⟨dir, name, hleads, rfl, he⟩ := leads_of_vacant ht
    by_cases hs : path.toList.getLast? = some '/'
    · simp only [hs] at h
      cases h
    · simp only [hs] at h
      exact ⟨dir, name, hleads, hs, by simp [he], (Except.ok.inj h).symm⟩

theorem remove_eq_ok (h : d.remove path = .ok d') :
    ∃ dir name content, Leads d path dir name ∧ d.file? (dir ++ [name]) = some content ∧
      d' = d.erase (dir ++ [name]) := by
  obtain ⟨t, ht, h⟩ := Except.bind_eq_ok_iff.1 h
  cases t with
  | directory p => cases h
  | vacant p => cases h
  | file p content =>
    obtain ⟨dir, name, hleads, rfl, he, -⟩ := leads_of_file ht
    exact ⟨dir, name, content, hleads, file?_eq_some_iff.2 he, (Except.ok.inj h).symm⟩

namespace Leads

variable {dir : Place} {name : String} {content : Bytes}

theorem read_eq (h : Leads d path dir name) (hf : d.file? (dir ++ [name]) = some content)
    (hs : path.toList.getLast? ≠ some '/') : d.read path = .ok content := by
  rw [read, h.locate_file (file?_eq_some_iff.1 hf) hs]
  rfl

theorem remove_eq (h : Leads d path dir name) (hf : d.file? (dir ++ [name]) = some content)
    (hs : path.toList.getLast? ≠ some '/') : d.remove path = .ok (d.erase (dir ++ [name])) := by
  rw [remove, h.locate_file (file?_eq_some_iff.1 hf) hs]
  rfl

end Leads

/-- What was written is read. -/
theorem read_of_write {content : Bytes} (h : d.write path content = .ok d') :
    d'.read path = .ok content := by
  obtain ⟨dir, name, hleads, hs, hdir, rfl⟩ := write_eq_ok h
  refine (hleads.grown (.set hdir _)).read_eq ?_ hs
  rw [file?_eq_some_iff, entry?_set hdir, if_pos rfl]

end Mockup.Disk
