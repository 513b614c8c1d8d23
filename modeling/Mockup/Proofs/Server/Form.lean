import Mockup.Proofs.Http.Disposition
import Mockup.Proofs.Http.MediaType
import Mockup.Proofs.Server.Generation

/-! Forms at the door. Of a form the first item that is called file is taken, byte for byte, and the
rest is passed over. A request without such an item, without a form, or with more bytes than are
allowed is refused before anything is done. The reader has its own ways with names: one that a
control character garbles ends the form, an item without a name may pass for a file by what the name
of its file mentions, and a file whose name ends in a backslash is kept under another. -/

namespace Mockup.Server

open Http Http.Multipart

/-! ### Requests with a form -/

/-- The request carries a form of these items: its content type states the boundary that they are
written with. -/
structure Carries (r : Request) (boundary : String) (xs : List Item) (epilogue : Bytes) : Prop where
  isBoundary : MediaType.IsBoundary boundary
  states : MediaType.boundary? (contentType r) = some boundary
  body : r.body = form boundary (xs.map Item.part) epilogue

/-- The request says that it carries a form. -/
def IsForm (r : Request) : Prop := formType.toList <+: (contentType r).toList

/-- The item is read and is no file. -/
structure IsOther (boundary : String) (x : Item) : Prop where
  fits : x.Fits boundary
  not_named : ¬ x.IsNamed filePart

theorem return_notMem_delimiter {boundary : String} (h : MediaType.IsBoundary boundary) :
    13 ∉ delimiter boundary := by
  intro hmem
  rcases List.mem_append.1 hmem with hmem | hmem
  · revert hmem
    decide +kernel
  · rcases Text.Utf8.exists_of_mem_encode hmem with hhigh | ⟨c, hc, hreturn⟩
    · exact absurd hhigh (by decide)
    · have hboundary := h.isBoundaryChar c hc
      rw [Char.toNat_inj.1 (show c.toNat = '\r'.toNat from hreturn)] at hboundary
      revert hboundary
      decide

/-! ### Answers -/

variable {s : Server} {o : Occasion} {d : Disk} {r : Request} {u : Upload}

/-- The request is refused as no upload, and nothing is done for it. -/
structure Refuses (s : Server) (o : Occasion) (d : Disk) (r : Request) : Prop where
  status : (s.answer o d r).response.status = 422
  detail : ∃ detail,
    Json.ofText? (s.answer o d r).response.body = some (.object [("detail", .string detail)]) ∧
      "Error: invalid upload: ".toList <+: detail.toList
  disk : (s.answer o d r).disk = d
  posts : (s.answer o d r).posts = []

/-- The upload is taken from the request, and the answer is what its job comes to. -/
structure Takes (s : Server) (o : Occasion) (d : Disk) (r : Request) (u : Upload) : Prop where
  upload : Upload.ofRequest s.bodyLimit r = .ok u
  disk : (s.answer o d r).disk =
    (s.workshop.run o.reactions d { uuid := o.uuid, upload := u }).1
  posts : (s.answer o d r).posts = (job s o d u).posts
  response : ∃ outcome, (job s o d u).stage = .done outcome ∧
    (s.answer o d r).response.status = (outcomeResponse o.trace outcome).status ∧
      (s.answer o d r).response.body = (outcomeResponse o.trace outcome).body

theorem disk_answer (s : Server) (o : Occasion) (d : Disk) (r : Request) :
    (s.answer o d r).disk = (s.dispatch o d r).disk := by
  unfold answer
  cases s.cors <;> rfl

theorem detail_upload (reason trace : String) :
    "Error: invalid upload: ".toList <+: ((Failure.upload reason).detail trace).toList := by
  have hwords : "Error: invalid upload: " = "Error: " ++ "invalid upload: " := by decide +kernel
  have hdetail : (Failure.upload reason).detail trace =
      "Error: " ++ ("invalid upload: " ++ reason) ++ "" := rfl
  rw [hdetail, hwords]
  refine ⟨(reason ++ "").toList, ?_⟩
  rw [← String.toList_append, String.toList_inj]
  simp only [String.append_assoc]

theorem refuses_of_error {e : FormError} (hm : r.method = "POST") (hp : r.path = generationPath)
    (h : Upload.ofRequest s.bodyLimit r = .error e) : Refuses s o d r := by
  obtain ⟨hposts, hstatus, hbody⟩ := answer_generation (s := s) (o := o) (d := d) hm hp
  have hgeneration : s.generation o d r =
      ⟨outcomeResponse o.trace (.error (.upload e.message)), d, [], []⟩ := by
    unfold generation
    rw [h]
  have hread : Json.Readable Json.maxOpen ((Failure.upload e.message).json o.trace) := by
    simp [Failure.json, Json.Readable, Json.ReadableMembers, Json.maxOpen]
  refine ⟨?_, ⟨(Failure.upload e.message).detail o.trace, ?_, ?_⟩, ?_, ?_⟩
  · rw [hstatus, hgeneration]
    rfl
  · rw [hbody, hgeneration]
    exact Json.ofText?_write hread
  · exact detail_upload e.message o.trace
  · rw [disk_answer, dispatch_generation hm hp, hgeneration]
  · rw [hposts, hgeneration]

theorem takes_of_ok (hm : r.method = "POST") (hp : r.path = generationPath)
    (h : Upload.ofRequest s.bodyLimit r = .ok u) : Takes s o d r u := by
  obtain ⟨outcome, hdone⟩ :=
    s.workshop.exists_done o.reactions d { uuid := o.uuid, upload := u }
  obtain ⟨hposts, hresponse⟩ := answer_of_job hm hp h hdone
  refine ⟨h, ?_, hposts, outcome, hdone, hresponse⟩
  rw [disk_answer, dispatch_generation hm hp, generation, h]

/-! ### Uploads -/

variable {boundary : String} {before after xs : List Item} {x : Item} {epilogue : Bytes}

/-- More bytes than are allowed are refused, whatever they are. -/
theorem exists_error_of_large (h : s.bodyLimit < r.body.length) :
    ∃ e, Upload.ofRequest s.bodyLimit r = .error e := by
  cases hu : Upload.ofRequest s.bodyLimit r with
  | error e => exact ⟨e, rfl⟩
  | ok u =>
    obtain ⟨-, hle, -⟩ := Upload.ofRequest_eq_ok_iff.1 hu
    omega

theorem isCalled_filePart_iff (h : x.Fits boundary) :
    x.part.isCalled filePart = true ↔ x.IsNamed filePart :=
  Item.isCalled_part_iff h ⟨by decide +kernel, List.forall_iff_forall_mem.1 (by decide +kernel)⟩
    (List.forall_iff_forall_mem.1 (by decide +kernel))

theorem IsOther.parts (h : ∀ x ∈ xs, IsOther boundary x) :
    ∀ p ∈ xs.map Item.part, p.Fits boundary ∧ p.isCalled filePart = false :=
  List.forall_mem_map.2 fun x hx =>
    ⟨(h x hx).fits.part, Bool.eq_false_iff.2 fun hcalled =>
      (h x hx).not_named ((isCalled_filePart_iff (h x hx).fits).1 hcalled)⟩

/-- The first file of a form is what its upload is made of. -/
theorem ofRequest_of_file {limit : Nat} (h : Carries r boundary (before ++ x :: after) epilogue)
    (hbefore : ∀ y ∈ before, IsOther boundary y) (hx : x.Fits boundary)
    (hnamed : x.IsNamed filePart) (hform : IsForm r) (hlimit : r.body.length ≤ limit) :
    Upload.ofRequest limit r = .ok ⟨sanitizeFilename x.heardFilename, x.content⟩ := by
  refine Upload.ofRequest_eq_ok_iff.2 ⟨List.isPrefixOf_iff_prefix.2 hform, hlimit, boundary,
    x.heardFilename, h.states, ?_, rfl⟩
  rw [h.body, List.map_append, List.map_cons, part_of_called (return_notMem_delimiter h.isBoundary)
    (IsOther.parts hbefore) hx.part ((isCalled_filePart_iff hx).2 hnamed),
    Item.filename_part hx (by decide +kernel) hnamed]
  rfl

/-- Without a part to read there is no upload. -/
theorem exists_error_of_missing (h : Carries r boundary xs epilogue)
    (hpart : ∀ x, part boundary filePart (form boundary (xs.map Item.part) epilogue) ≠ .ok x)
    (limit : Nat) : ∃ e, Upload.ofRequest limit r = .error e := by
  cases hu : Upload.ofRequest limit r with
  | error e => exact ⟨e, rfl⟩
  | ok u =>
    obtain ⟨-, -, b, filename, hb, hread, -⟩ := Upload.ofRequest_eq_ok_iff.1 hu
    cases h.states.symm.trans hb
    rw [h.body] at hread
    exact absurd hread (hpart _)

theorem exists_error_of_others (h : Carries r boundary xs epilogue)
    (hxs : ∀ x ∈ xs, IsOther boundary x) (limit : Nat) :
    ∃ e, Upload.ofRequest limit r = .error e := by
  refine exists_error_of_missing h ?_ limit
  rw [part_of_none_called (return_notMem_delimiter h.isBoundary) (IsOther.parts hxs)]
  exact nofun

theorem exists_error_of_garbled (h : Carries r boundary (before ++ x :: after) epilogue)
    (hbefore : ∀ y ∈ before, IsOther boundary y) (hx : x.IsGarbled) (limit : Nat) :
    ∃ e, Upload.ofRequest limit r = .error e := by
  refine exists_error_of_missing h ?_ limit
  rw [List.map_append, List.map_cons, part_of_broken (return_notMem_delimiter h.isBoundary)
    (IsOther.parts hbefore) rfl hx.isBroken]
  exact nofun

/-! ### The door -/

/-- What the service does with forms. -/
structure TakesForms (s : Server) : Prop where
  /-- The first item called file is taken with its bytes, whatever stands before and after it. -/
  takes {o : Occasion} {d : Disk} {r : Request} {boundary : String} {before after : List Item}
    {x : Item} {epilogue : Bytes} (hm : r.method = "POST") (hp : r.path = generationPath)
    (h : Carries r boundary (before ++ x :: after) epilogue)
    (hbefore : ∀ y ∈ before, IsOther boundary y) (hx : x.Fits boundary)
    (hnamed : x.IsNamed filePart) (hform : IsForm r) (hlimit : r.body.length ≤ s.bodyLimit) :
    Takes s o d r ⟨sanitizeFilename x.heardFilename, x.content⟩
  /-- A form without such an item is refused. -/
  without_file {o : Occasion} {d : Disk} {r : Request} {boundary : String} {xs : List Item}
    {epilogue : Bytes} (hm : r.method = "POST") (hp : r.path = generationPath)
    (h : Carries r boundary xs epilogue) (hxs : ∀ x ∈ xs, IsOther boundary x) : Refuses s o d r
  /-- A garbled item is as far as a form is read. -/
  garbled {o : Occasion} {d : Disk} {r : Request} {boundary : String} {before after : List Item}
    {x : Item} {epilogue : Bytes} (hm : r.method = "POST") (hp : r.path = generationPath)
    (h : Carries r boundary (before ++ x :: after) epilogue)
    (hbefore : ∀ y ∈ before, IsOther boundary y) (hx : x.IsGarbled) : Refuses s o d r
  /-- What does not say that it is a form is refused. -/
  without_form {o : Occasion} {d : Disk} {r : Request} (hm : r.method = "POST")
    (hp : r.path = generationPath) (hform : ¬ IsForm r) : Refuses s o d r
  /-- A form with an item that is larger than a body may be is refused. -/
  too_large {o : Occasion} {d : Disk} {r : Request} {boundary : String} {xs : List Item} {x : Item}
    {epilogue : Bytes} (hm : r.method = "POST") (hp : r.path = generationPath)
    (hbody : r.body = form boundary (xs.map Item.part) epilogue) (hmem : x ∈ xs)
    (hlarge : s.bodyLimit < x.content.length) : Refuses s o d r
  /-- Every boundary can be stated, between quotes and as a token. -/
  states {boundary : String} (h : MediaType.IsBoundary boundary) :
    MediaType.boundary? (MediaType.formTypeWith ("\"" ++ boundary ++ "\"")) = some boundary ∧
      ((∀ c ∈ boundary.toList, isTokenChar c = true) →
        MediaType.boundary? (MediaType.formTypeWith boundary) = some boundary)

/-- Of the items of a form the first that is called file is taken, byte for byte. Where there is no
such item or no form, or where an item is garbled or too large, nothing is done. -/
theorem takesForms (s : Server) : TakesForms s where
  takes hm hp h hbefore hx hnamed hform hlimit :=
    takes_of_ok hm hp (ofRequest_of_file h hbefore hx hnamed hform hlimit)
  without_file hm hp h hxs :=
    (exists_error_of_others h hxs s.bodyLimit).elim fun _ he => refuses_of_error hm hp he
  garbled hm hp h hbefore hx :=
    (exists_error_of_garbled h hbefore hx s.bodyLimit).elim fun _ he => refuses_of_error hm hp he
  without_form {o d r} hm hp hform := by
    have hnot : formType.toList.isPrefixOf (contentType r).toList = false := by
      rw [Bool.eq_false_iff, ne_eq, List.isPrefixOf_iff_prefix]
      exact hform
    have hu : Upload.ofRequest s.bodyLimit r = .error .noForm := by
      unfold Upload.ofRequest
      dsimp only
      rw [hnot]
      rfl
    exact refuses_of_error hm hp hu
  too_large {o d r boundary xs x epilogue} hm hp hbody hmem hlarge := by
    have hle := length_content_le_form boundary epilogue (List.mem_map_of_mem (f := Item.part) hmem)
    have hlength : s.bodyLimit < r.body.length := by
      rw [hbody]
      exact Nat.lt_of_lt_of_le hlarge hle
    obtain ⟨e, he⟩ := exists_error_of_large hlength
    exact refuses_of_error hm hp he
  states h := ⟨MediaType.boundary?_quoted h, MediaType.boundary?_token⟩

/-! ### Decoys -/

/-- An item that is told by its names alone. -/
theorem fits_of_others_nil (hothers : x.others = [])
    (h : (∀ n ∈ x.name, IsSendable n) ∧ (∀ f ∈ x.filename, IsSendable f) ∧
      ¬ delimiter boundary <:+: x.content) : x.Fits boundary where
  name := h.1
  filename := h.2.1
  others f hf := by
    rw [hothers] at hf
    cases hf
  length_others_lt := by
    rw [hothers]
    decide
  not_infix := h.2.2

/-- The content of this file looks like the end of a part. -/
def decoyFile : Item where
  name := some "file"
  filename := some "designs/a.png"
  content := [13, 10, 45, 45, 13, 10]

/-- An item with another name, whose file has a name that would pass for one. -/
def decoyItem : Item where
  name := some "other"
  filename := some "; name=file ;"
  content := [13, 10]

/-- The file between items with another name and one with the same name. -/
def decoyRequest : Request where
  method := "POST"
  target := "/generate-code/"
  fields := [("content-type", "multipart/form-data; boundary=\"b\"")]
  body := form "b" ([decoyItem, decoyFile, { name := some "file", content := [] }].map Item.part)
    [13, 10]

theorem takesForms_decoys :
    ∃ s, build {} = .ok s ∧ decoyRequest.body.length ≤ s.bodyLimit ∧
      ∀ o d, Takes s o d decoyRequest ⟨"a.png", [13, 10, 45, 45, 13, 10]⟩ := by
  have hbuild : (build {}).toOption.any (fun _ => true) = true := by decide +kernel
  obtain ⟨s, hb, -⟩ := Except.exists_of_any hbuild
  have hlimit : decoyRequest.body.length ≤ s.bodyLimit := by
    rw [(build_eq_ok hb).1]
    decide +kernel
  have hcarries : Carries decoyRequest "b"
      ([decoyItem] ++ decoyFile :: [{ name := some "file", content := [] }]) [13, 10] :=
    ⟨⟨by decide, by decide, List.all_eq_true.1 (by decide), by decide⟩, by decide +kernel, rfl⟩
  have hother : IsOther "b" decoyItem :=
    ⟨fits_of_others_nil rfl (by decide +kernel), by
      rintro (hname | ⟨hname, -⟩)
      · exact absurd hname (by decide)
      · cases hname⟩
  have hfits : decoyFile.Fits "b" := fits_of_others_nil rfl (by decide +kernel)
  refine ⟨s, hb, hlimit, fun o d => ?_⟩
  have htakes := (takesForms s).takes (o := o) (d := d) rfl (by decide) hcarries
    (List.forall_mem_singleton.2 hother) hfits (.inl rfl) (by unfold IsForm; decide +kernel) hlimit
  have hname : sanitizeFilename decoyFile.heardFilename = "a.png" := by decide +kernel
  rwa [hname] at htakes

/-! ### Misheard names -/

/-- The first item that has the name is taken under the name that its file has, and where there is
no such item the request is refused. -/
structure TakesNamed (s : Server) (o : Occasion) (d : Disk) (r : Request) (xs : List Item) :
    Prop where
  takes {before after : List Item} {x : Item} (hxs : xs = before ++ x :: after)
    (hbefore : ∀ y ∈ before, y.name ≠ some filePart) (hx : x.name = some filePart) :
    Takes s o d r ⟨sanitizeFilename x.filename, x.content⟩
  without_file (hxs : ∀ x ∈ xs, x.name ≠ some filePart) : Refuses s o d r

/-- The name of this file mentions another name, which passes for that of the item. -/
def namelessItem : Item where
  filename := some "x; name=file .png"
  content := [104, 105]

def backslashItem : Item where
  name := some "file"
  filename := some "a.png\\"
  content := [104, 105]

/-- The name of this file has a control character. -/
def garbledItem : Item where
  name := some "file"
  filename := some "a\x07.png"
  content := [104, 105]

def requestOf (x : Item) : Request where
  method := "POST"
  target := "/generate-code/"
  fields := [("content-type", "multipart/form-data; boundary=b")]
  body := form "b" [x.part] [13, 10]

/-- The request is a form of the one item, which is not too large. -/
structure IsSent (s : Server) (x : Item) : Prop where
  carries : Carries (requestOf x) "b" [x] [13, 10]
  isForm : IsForm (requestOf x)
  not_infix : ¬ delimiter "b" <:+: x.content
  length_le : (requestOf x).body.length ≤ s.bodyLimit

theorem contentType_requestOf (x : Item) :
    contentType (requestOf x) = "multipart/form-data; boundary=b" := by
  unfold contentType Request.field? requestOf
  dsimp only
  decide +kernel

theorem isSent (hx : ¬ delimiter "b" <:+: x.content)
    (hlimit : (requestOf x).body.length ≤ s.bodyLimit) : IsSent s x :=
  ⟨⟨⟨by decide, by decide, List.all_eq_true.1 (by decide), by decide⟩,
    by rw [contentType_requestOf]; decide +kernel, rfl⟩,
    by rw [IsForm, contentType_requestOf]; decide +kernel, hx, hlimit⟩

theorem IsSent.split (h : IsSent s x) : Carries (requestOf x) "b" ([] ++ x :: []) [13, 10] :=
  h.carries

theorem IsSent.ofRequest (h : IsSent s x) (hx : x.Fits "b") (hnamed : x.IsNamed filePart) :
    Upload.ofRequest s.bodyLimit (requestOf x) =
      .ok ⟨sanitizeFilename x.heardFilename, x.content⟩ :=
  ofRequest_of_file h.split nofun hx hnamed h.isForm h.length_le

/-- The item without a name is taken for the file, and the vision model is asked about it. -/
theorem posts_namelessItem (hb : build {} = .ok s) (h : IsSent s namelessItem) :
    (s.answer kindOccasion {} (requestOf namelessItem)).posts ≠ [] := by
  have hfits : namelessItem.Fits "b" := fits_of_others_nil rfl (by decide +kernel)
  have hupload := h.ofRequest hfits ((isCalled_filePart_iff hfits).1 (by decide +kernel))
  have hstore : (Upload.store {} ({} : Config).server.uploadDir kindOccasion.uuid
      ⟨sanitizeFilename namelessItem.heardFilename, namelessItem.content⟩).1 =
        .ok "uploads/0-x; name=file .png" := by
    decide +kernel
  have htarget : s.workshop.client.target?.isSome := by
    rw [target?_of_build hb]
    decide +kernel
  obtain ⟨a, b, hasks, -⟩ :=
    exists_course htarget rfl (by decide) hupload (store_of_build hb hstore)
  have hlength := hasks.length_posts
  have hpos := hasks.vision_pos
  intro hnone
  rw [hnone, List.length_nil] at hlength
  omega

/-- Items are not always taken as they are named: one without a name is taken for the file, a file
is kept under another name than its own, and one with a garbled name is refused. -/
theorem not_takesNamed :
    ∃ s, build {} = .ok s ∧ ∀ x ∈ [namelessItem, backslashItem, garbledItem], IsSent s x ∧
      ¬ TakesNamed s kindOccasion {} (requestOf x) [x] := by
  have hbuild : (build {}).toOption.any (fun _ => true) = true := by decide +kernel
  obtain ⟨s, hb, -⟩ := Except.exists_of_any hbuild
  have hlimit : s.bodyLimit = ({} : Config).server.bodyLimit := (build_eq_ok hb).1
  have hnameless : IsSent s namelessItem :=
    isSent (by decide +kernel) (by rw [hlimit]; decide +kernel)
  have hbackslash : IsSent s backslashItem :=
    isSent (by decide +kernel) (by rw [hlimit]; decide +kernel)
  have hgarbled : IsSent s garbledItem :=
    isSent (by decide +kernel) (by rw [hlimit]; decide +kernel)
  refine ⟨s, hb, ?_⟩
  simp only [List.forall_mem_cons]
  refine ⟨⟨hnameless, fun h => ?_⟩, ⟨hbackslash, fun h => ?_⟩, ⟨hgarbled, fun h => ?_⟩,
    List.forall_mem_nil _⟩
  · exact posts_namelessItem hb hnameless (h.without_file (by decide)).posts
  · have htakes := h.takes (List.nil_append _).symm (List.forall_mem_nil _) rfl
    have hupload := hbackslash.ofRequest (fits_of_others_nil rfl (by decide +kernel)) (.inl rfl)
    rw [htakes.upload] at hupload
    have hname := congrArg Upload.filename (Except.ok.inj hupload)
    exact absurd hname (by decide +kernel)
  · have htakes := h.takes (List.nil_append _).symm (List.forall_mem_nil _) rfl
    obtain ⟨e, he⟩ := exists_error_of_garbled hgarbled.split (List.forall_mem_nil _)
      ⟨by decide +kernel, by decide +kernel, by decide +kernel⟩ s.bodyLimit
    rw [htakes.upload] at he
    cases he

end Mockup.Server
