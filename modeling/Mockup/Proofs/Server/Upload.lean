import Mockup.Proofs.Disk
import Mockup.Server.Form

/-! Where uploads are kept. The name of an upload stays within the upload directory, and uploads
with different identifiers have different names. -/

namespace Mockup.Server

/-! ### Names -/

theorem mem_names_of_mem_components {path name : String} (h : name ∈ Disk.components path) :
    name ∈ Disk.names path := by
  unfold Disk.components at h
  dsimp only at h
  split_ifs at h
  · exact List.mem_of_mem_filter h
  · split at h
    next rest hnames =>
      rw [hnames]
      rcases List.mem_cons.1 h with rfl | h
      · exact List.mem_cons_self
      · exact List.mem_cons_of_mem _ (List.mem_of_mem_filter h)
    · exact List.mem_of_mem_filter h

theorem slash_notMem_sanitizeFilename (name : Option String) :
    '/' ∉ (sanitizeFilename name).toList := by
  have hdefault : '/' ∉ defaultFilename.toList := by decide
  unfold sanitizeFilename
  split
  next n hn =>
    split_ifs
    · obtain ⟨path, -, hlast⟩ := Option.bind_eq_some_iff.1 hn
      unfold lastComponent? at hlast
      split at hlast
      · cases hlast
      · cases hlast
      · exact Disk.notMem_of_mem_names
          (mem_names_of_mem_components (List.mem_of_getLast? hlast))
    · exact hdefault
  · exact hdefault

namespace Upload

/-- The name under which an upload is kept. -/
def ownName (uuid filename : String) : String := uuid ++ "-" ++ filename

theorem ownName_ne_empty (uuid filename : String) : ownName uuid filename ≠ "" := by
  intro h
  have hlen := congrArg String.length h
  simp [ownName] at hlen

theorem slash_notMem_ownName {uuid filename : String} (hu : '/' ∉ uuid.toList)
    (hf : '/' ∉ filename.toList) : '/' ∉ (ownName uuid filename).toList := by
  simp [ownName, hu, hf]

/-- Identifiers of one length can be told apart in the names. -/
theorem uuid_eq_of_ownName {uuid uuid' filename filename' : String}
    (hlen : uuid.length = uuid'.length)
    (h : ownName uuid filename = ownName uuid' filename') : uuid = uuid' := by
  have hlist := congrArg String.toList h
  simp only [ownName, String.toList_append, List.append_assoc] at hlist
  exact String.toList_inj.1 (List.append_inj_left hlist hlen)

/-- An upload is kept if its directory can be made and its file written there. -/
theorem store_eq_ok {d d' : Disk} {dir uuid path : String} {u : Upload}
    (h : store d dir uuid u = (.ok path, d')) :
    path = Upload.path dir uuid u.filename ∧
      ∃ e, house d dir = .ok e ∧ write e (Upload.path dir uuid u.filename) u = .ok d' := by
  unfold store at h
  cases hhouse : house d dir with
  | error err =>
    rw [hhouse] at h
    cases h
  | ok e =>
    rw [hhouse] at h
    dsimp only at h
    cases hwrite : write e (Upload.path dir uuid u.filename) u with
    | error err =>
      rw [hwrite] at h
      cases h
    | ok e' =>
      rw [hwrite] at h
      cases h
      exact ⟨rfl, e, rfl, hwrite⟩

/-- What was kept is read back. -/
theorem read_of_store {d d' : Disk} {dir uuid path : String} {u : Upload}
    (h : store d dir uuid u = (.ok path, d')) : d'.read path = .ok u.content := by
  obtain ⟨rfl, e, -, hwrite⟩ := store_eq_ok h
  exact Disk.read_of_write (Except.mapError_eq_ok_iff.1 hwrite)

/-- What it takes for a request to hold an upload. -/
theorem ofRequest_eq_ok_iff {limit : Nat} {r : Http.Request} {u : Upload} :
    ofRequest limit r = .ok u ↔
      formType.toList.isPrefixOf (contentType r).toList = true ∧ r.body.length ≤ limit ∧
        ∃ boundary filename, Http.MediaType.boundary? (contentType r) = some boundary ∧
          Http.Multipart.part boundary filePart r.body = .ok (filename, u.content) ∧
          u.filename = sanitizeFilename filename := by
  unfold ofRequest
  dsimp only
  cases hform : formType.toList.isPrefixOf (contentType r).toList with
  | false => simp
  | true =>
    cases hb : Http.MediaType.boundary? (contentType r) with
    | none => simp
    | some boundary =>
      by_cases hlimit : limit < r.body.length
      · simp [hlimit, Nat.not_le.2 hlimit]
      · cases hpart : Http.Multipart.part boundary filePart r.body with
        | error m => cases m <;> simp [hlimit, hpart]
        | ok p =>
          obtain ⟨filename, content⟩ := p
          obtain ⟨uname, ucontent⟩ := u
          simp [hlimit, hpart, Nat.not_lt.1 hlimit]
          exact ⟨fun ⟨hn, hc⟩ => ⟨hc, hn.symm⟩, fun ⟨hc, hn⟩ => ⟨hn.symm, hc⟩⟩

theorem slash_notMem_filename {limit : Nat} {r : Http.Request} {u : Upload}
    (h : ofRequest limit r = .ok u) : '/' ∉ u.filename.toList := by
  obtain ⟨-, -, -, filename, -, -, hname⟩ := ofRequest_eq_ok_iff.1 h
  rw [hname]
  exact slash_notMem_sanitizeFilename filename

end Upload

/-! ### A design -/

/-- A form with a design of two bytes. -/
def designForm : String :=
  "--b\r\nContent-Disposition: form-data; name=\"file\"; filename=\"a.png\"\r\n\r\nhi\r\n--b--\r\n"

def designRequest : Http.Request where
  method := "POST"
  target := "/generate-code/"
  fields := [("content-type", "multipart/form-data; boundary=b")]
  body := designForm.toList.map fun c => UInt8.ofNat c.toNat

def design : Upload := ⟨"a.png", [104, 105]⟩

theorem ofRequest_design {limit : Nat} (h : designForm.toList.length ≤ limit) :
    Upload.ofRequest limit designRequest = .ok design := by
  refine Upload.ofRequest_eq_ok_iff.2 ⟨by decide +kernel, ?_, "b", some "a.png", by decide +kernel,
    by decide +kernel, by decide +kernel⟩
  rw [designRequest, List.length_map]
  exact h

end Mockup.Server
