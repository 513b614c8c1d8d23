import Mockup.Proofs.Server.Interleaving

/-! Names that clients give to their files. Whatever a client sends, what is kept of it is one name
that no directory has a meaning of its own for, so an upload stands directly in the upload directory
and keeping it touches no other file. -/

namespace Mockup.Server

/-! ### The last component of a path -/

/-- The parts of a path between slashes, but for the empty ones and single dots. -/
def parts (path : String) : List String :=
  ((path.toList.splitOn '/').map String.ofList).filter fun n => n ≠ "" ∧ n ≠ "."

theorem parts_eq (path : String) : parts path = (Disk.names path).filter (· != ".") := by
  unfold parts Disk.names
  rw [List.filter_map, List.filter_map, List.filter_filter]
  congr 1
  refine List.filter_congr fun s _ => ?_
  by_cases hdot : String.ofList s = "." <;> cases s <;> simp_all

/-- A leading dot is a component too. -/
theorem components_eq (path : String) :
    Disk.components path = parts path ∨ Disk.components path = "." :: parts path := by
  rw [parts_eq]
  unfold Disk.components
  dsimp only
  split_ifs
  · exact .inl rfl
  · split
    next rest hnames =>
      rw [hnames]
      exact .inr rfl
    · exact .inl rfl

theorem lastComponent?_eq (path : String) :
    lastComponent? path = (parts path).getLast?.filter (· != "..") := by
  have hdot : ∀ n, (parts path).getLast? = some n → n ≠ "." := by
    intro n hn
    have hmem := List.mem_of_getLast? hn
    rw [parts_eq, List.mem_filter] at hmem
    simpa using hmem.2
  have hlast : (Disk.components path).getLast? = (parts path).getLast? ∨
      (Disk.components path).getLast? = some "." ∧ (parts path).getLast? = none := by
    rcases components_eq path with h | h
    · exact .inl (congrArg _ h)
    · rw [h]
      cases hparts : parts path with
      | nil => exact .inr ⟨rfl, rfl⟩
      | cons n ns => exact .inl List.getLast?_cons_cons
  unfold lastComponent?
  rcases hlast with hlast | ⟨hlast, hnone⟩
  · rw [hlast]
    cases hn : (parts path).getLast? with
    | none => rfl
    | some n =>
      by_cases hup : n = ".."
      · subst hup
        rfl
      · have hne := hdot n hn
        simp only [Option.filter_some, bne_iff_ne, ne_eq, hup, not_false_eq_true, if_true]
        split
        · next h => exact absurd (Option.some.inj h) hne
        · next h => exact absurd (Option.some.inj h) hup
        · rfl
  · rw [hlast, hnone]
    rfl

/-! ### What is kept of a name -/

/-- The name stands for an entry of its own in every directory, and shows. -/
structure IsEntryName (n : String) : Prop where
  visible : ∃ c ∈ n.toList, Text.isBlank c = false
  no_slash : '/' ∉ n.toList
  not_here : n ≠ "."
  not_up : n ≠ ".."

theorem isEntryName_default : IsEntryName defaultFilename :=
  ⟨⟨'u', by decide, by decide⟩, by decide, by decide, by decide⟩

/-- Either nothing is kept of a name, or its last component is. -/
theorem sanitizeFilename_cases (name : Option String) :
    sanitizeFilename name = defaultFilename ∨ ∃ path, name = some path ∧
      (parts path).getLast? = some (sanitizeFilename name) ∧ sanitizeFilename name ≠ ".." ∧
      Text.hasContent (sanitizeFilename name).toList = true := by
  unfold sanitizeFilename
  split
  next n hn =>
    split_ifs with hcontent
    · obtain ⟨path, hpath, hlast⟩ := Option.bind_eq_some_iff.1 hn
      rw [lastComponent?_eq, Option.filter_eq_some_iff, bne_iff_ne] at hlast
      exact .inr ⟨path, hpath, hlast.1, hlast.2, hcontent⟩
    · exact .inl rfl
  · exact .inl rfl

theorem isEntryName_sanitizeFilename (name : Option String) :
    IsEntryName (sanitizeFilename name) := by
  rcases sanitizeFilename_cases name with h | ⟨path, -, hlast, hup, hcontent⟩
  · rw [h]
    exact isEntryName_default
  · refine ⟨?_, slash_notMem_sanitizeFilename name, ?_, hup⟩
    · simpa [Text.hasContent] using hcontent
    · have hmem := List.mem_of_getLast? hlast
      rw [parts_eq, List.mem_filter] at hmem
      simpa using hmem.2

namespace IsEntryName

variable {n : String}

theorem ne_empty (h : IsEntryName n) : n ≠ "" := by
  rintro rfl
  obtain ⟨c, hc, -⟩ := h.visible
  exact List.not_mem_nil hc

/-- Nothing is taken off the name of an entry. -/
theorem sanitizeFilename_eq (h : IsEntryName n) : sanitizeFilename (some n) = n := by
  have hparts : parts n = [n] := by
    rw [parts_eq, Disk.names_of_notMem h.no_slash h.ne_empty]
    simp [h.not_here]
  have hlast : lastComponent? n = some n := by
    rw [lastComponent?_eq, hparts]
    simp [h.not_up]
  have hcontent : Text.hasContent n.toList = true := by
    simpa [Text.hasContent] using h.visible
  unfold sanitizeFilename
  rw [Option.bind_some, hlast]
  exact if_pos hcontent

end IsEntryName

/-! ### Where an upload is kept -/

/-- The path is that of an entry directly in a directory. -/
structure IsEntryOf (dir own path : String) : Prop where
  components_eq : Disk.components path = Disk.components dir ++ [own]
  rooted_iff : path.toList.head? = some '/' ↔ dir.toList.head? = some '/'

theorem isEntryOf_join (dir : String) {own : String} (h : IsEntryName own) :
    IsEntryOf dir own (Disk.join dir own) := by
  have hrooted : (Disk.join dir own).toList.head? = some '/' ↔ dir.toList.head? = some '/' := by
    obtain ⟨s, hs, hcons, hnil⟩ := Disk.toList_join dir own
    rw [hs]
    by_cases hdir : dir = ""
    · rw [hnil hdir, hdir, List.nil_append]
      exact iff_of_false (fun hh => h.no_slash (List.mem_of_mem_head? hh)) nofun
    · have hne : s ≠ [] := fun h' => by
        rw [h'] at hcons
        exact hdir (String.toList_eq_nil_iff.1 (List.head?_eq_none_iff.1 (hcons hdir).symm))
      rw [List.head?_append_of_ne_nil _ hne, hcons hdir]
  refine ⟨?_, hrooted⟩
  unfold Disk.components
  rw [Disk.names_join h.no_slash h.ne_empty]
  simp only [hrooted]
  split_ifs
  · simp [h.not_here]
  · cases Disk.names dir with
    | nil => simp [h.not_here]
    | cons n ns =>
      by_cases hn : n = "."
      · simp [hn, h.not_here]
      · simp [hn, h.not_here]

theorem isEntryName_ownName {uuid n : String} (hu : '/' ∉ uuid.toList) (hn : '/' ∉ n.toList) :
    IsEntryName (Upload.ownName uuid n) := by
  have hhyphen : '-' ∈ (Upload.ownName uuid n).toList := by simp [Upload.ownName]
  refine ⟨⟨'-', hhyphen, by decide⟩, Upload.slash_notMem_ownName hu hn, ?_, ?_⟩ <;>
    intro h <;> rw [h] at hhyphen <;> revert hhyphen <;> decide

/-- What keeping an upload does: if it succeeds, the bytes stand in the directory under the name,
and whether or not it does, no other file is touched. -/
structure KeepsAt (dir own : String) (u : Upload) (d : Disk)
    (r : Except StoreError String × Disk) : Prop where
  kept : ∀ path, r.1 = .ok path → IsEntryOf dir own path ∧
    r.2.file? (d.placeOf dir ++ [own]) = some u.content
  untouched : ∀ p, p ≠ d.placeOf dir ++ [own] → r.2.file? p = d.file? p

theorem keepsAt_store (d : Disk) (dir : String) {uuid : String} {u : Upload}
    (hu : '/' ∉ uuid.toList) (hn : '/' ∉ u.filename.toList) :
    KeepsAt dir (Upload.ownName uuid u.filename) u d (Upload.store d dir uuid u) := by
  have hown := isEntryName_ownName hu hn
  unfold Upload.store
  cases hhouse : Upload.house d dir with
  | error e => exact ⟨nofun, fun _ _ => rfl⟩
  | ok e =>
    have hfurnished := Disk.makeDirectories_furnished (Except.mapError_eq_ok_iff.1 hhouse)
    have hplace := Workshop.placeOf_of_grown hfurnished.toGrown dir
    dsimp only
    cases hwrite : Upload.write e (Upload.path dir uuid u.filename) u with
    | error e' => exact ⟨nofun, fun p _ => hfurnished.file?_eq p⟩
    | ok e' =>
      obtain ⟨at_, name, hleads, -, hdir, rfl⟩ :=
        Disk.write_eq_ok (Except.mapError_eq_ok_iff.1 hwrite)
      obtain ⟨rfl, rfl⟩ := hleads.of_join hown.no_slash hown.ne_empty
      rw [hplace] at hdir ⊢
      refine ⟨?_, fun p hp => ?_⟩
      · rintro path ⟨⟩
        refine ⟨isEntryOf_join dir hown, ?_⟩
        exact (Disk.file?_set hdir _ _).trans (if_pos rfl)
      · exact (Disk.file?_set hdir _ _).trans ((if_neg hp).trans (hfurnished.file?_eq p))

/-- Whatever name a client gives, what is kept of it is the name of an entry: the last component of
the name or the default, and the same again when it is taken as a name. Under it an upload stands
directly in the upload directory. -/
theorem sanitizeFilename_contained (name : Option String) :
    IsEntryName (sanitizeFilename name) ∧
      (sanitizeFilename name = defaultFilename ∨
        ∃ path, name = some path ∧ (parts path).getLast? = some (sanitizeFilename name)) ∧
      sanitizeFilename (some (sanitizeFilename name)) = sanitizeFilename name ∧
      ∀ dir uuid, IsUuid uuid →
        IsEntryOf dir (uuid ++ "-" ++ sanitizeFilename name)
          (Upload.path dir uuid (sanitizeFilename name)) ∧
        ∀ d content, KeepsAt dir (uuid ++ "-" ++ sanitizeFilename name)
          ⟨sanitizeFilename name, content⟩ d
          (Upload.store d dir uuid ⟨sanitizeFilename name, content⟩) := by
  have hname := isEntryName_sanitizeFilename name
  refine ⟨hname, ?_, hname.sanitizeFilename_eq, fun dir uuid huuid => ?_⟩
  · rcases sanitizeFilename_cases name with h | ⟨path, hpath, hlast, -⟩
    · exact .inl h
    · exact .inr ⟨path, hpath, hlast⟩
  · have hslash := slash_notMem_of_isUuid huuid
    exact ⟨isEntryOf_join dir (isEntryName_ownName hslash hname.no_slash),
      fun d content => keepsAt_store (u := ⟨_, content⟩) d dir hslash hname.no_slash⟩

/-- A name that climbs out of every directory, and one that is blank. -/
theorem sanitizeFilename_contained_climbing :
    ∃ uuid, IsUuid uuid ∧ sanitizeFilename (some "../../etc/passwd/./") = "passwd" ∧
      sanitizeFilename (some "designs/ ") = defaultFilename ∧
      IsEntryOf "uploads/." (uuid ++ "-passwd") ("uploads/./" ++ uuid ++ "-passwd") := by
  refine ⟨"01234567-89ab-4def-8123-456789abcdef", by decide, by decide, by decide, ?_⟩
  obtain ⟨-, -, -, hkept⟩ := sanitizeFilename_contained (some "../../etc/passwd/./")
  exact (hkept "uploads/." "01234567-89ab-4def-8123-456789abcdef" (by decide)).1

end Mockup.Server
