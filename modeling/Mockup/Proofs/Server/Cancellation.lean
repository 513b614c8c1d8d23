import Mockup.Proofs.Server.Interleaving

/-! Jobs that are called off. An operation on the disk is handed over and takes effect later, also
when its job is called off meanwhile; what keeps the file goes with the job and takes it along.
So a file is left behind in one way only, by a write that takes effect after that, and every upload
that can be kept can be left behind so. -/

namespace Mockup.Server

open Model

/-! ### What a step does to the disk -/

namespace Workshop

variable {w : Workshop} {d d' : Disk} {j : Job}

/-- What a step of a job may make of the disk: directories are made, the file is written, whole or
in part, and removed. All other steps leave the disk alone. -/
def Affects (w : Workshop) (j : Job) (d d' : Disk) : Prop :=
  match j.stage with
  | .received => d.Furnished d'
  | .housed => d' = d ∨ ∃ part, part <+: j.upload.content ∧ d.write (w.path j) part = .ok d'
  | .settled _ => d' = Upload.release d (w.path j)
  | _ => d' = d

theorem step_affects (w : Workshop) (reactions : Nat → Reaction) (d : Disk) (j : Job) :
    w.Affects j d (w.step reactions d j).1 := by
  unfold Affects step
  cases j.stage with
  | received =>
    dsimp only
    cases hhouse : Upload.house d w.uploadDir with
    | ok d' => exact Disk.makeDirectories_furnished (Except.mapError_eq_ok_iff.1 hhouse)
    | error e => exact .refl d
  | housed =>
    dsimp only
    cases hwrite : Upload.write d (w.path j) j.upload with
    | ok d' => exact .inr ⟨_, List.prefix_rfl, Except.mapError_eq_ok_iff.1 hwrite⟩
    | error e => exact .inl rfl
  | stored =>
    dsimp only
    cases Client.image d (w.visionRequest (w.path j)) <;> rfl
  | seen image => rfl
  | described description => rfl
  | settled outcome => rfl
  | done outcome => rfl

theorem Step.affects {p p' : Disk × Job} (h : w.Step p p') : w.Affects p.2 p.1 p'.1 := by
  cases h with
  | regular reactions d j => exact w.step_affects reactions d j
  | unhoused e hj hd =>
    unfold Affects
    rw [hj]
    exact hd
  | unwritten e hj =>
    unfold Affects
    rw [hj]
    exact .inl rfl
  | cut e hj hpart hd =>
    unfold Affects
    rw [hj]
    exact .inr ⟨_, hpart, hd⟩
  | unread e hj =>
    unfold Affects
    rw [hj]

theorem Step.of_house (hj : j.stage = .received) (h : Upload.house d w.uploadDir = .ok d') :
    w.Step (d, j) (d', { j with stage := .housed }) := by
  have hstep : w.step (fun _ => .silence) d j = (d', { j with stage := .housed }) := by
    unfold step
    rw [hj, h]
  rw [← hstep]
  exact .regular _ d j

theorem Step.of_write (hj : j.stage = .housed) (h : Upload.write d (w.path j) j.upload = .ok d') :
    w.Step (d, j) (d', { j with stage := .stored }) := by
  have hstep : w.step (fun _ => .silence) d j = (d', { j with stage := .stored }) := by
    unfold step
    rw [hj, h]
  rw [← hstep]
  exact .regular _ d j

/-- The disk when a job is called off. From the writing of its file on the job keeps the file, and
takes it along. -/
def unguard (w : Workshop) (d : Disk) (j : Job) : Disk :=
  match j.stage with
  | .received | .done _ => d
  | _ => Upload.release d (w.path j)

/-- A job that is called off has no file when it goes. -/
theorem Good.unguard (hg : w.Good d j) (hn : IsNamed j) :
    w.Touches j d (w.unguard d j) ∧ (w.unguard d j).file? (w.ownPlace d j) = none := by
  have hrelease := release_own hn hg.leads
  unfold Workshop.unguard
  split
  next hj => exact ⟨.refl w j d, hg.absent (by rw [hj]; rfl)⟩
  next hj => exact ⟨.refl w j d, hg.absent (by rw [hj]; rfl)⟩
  next => exact hrelease

end Workshop

/-- The next step is an operation on the disk for which the job waits. -/
def Stage.isOnDisk : Stage → Bool
  | .received | .housed | .stored => true
  | _ => false

/-- An operation on the disk posts nothing. -/
theorem Workshop.posts_step (w : Workshop) (reactions : Nat → Reaction) (d : Disk) {j : Job}
    (hj : j.stage.isOnDisk = true) : (w.step reactions d j).2.posts = j.posts := by
  unfold step
  cases hstage : j.stage with
  | received => dsimp only; split <;> rfl
  | housed => dsimp only; split <;> rfl
  | stored => dsimp only; split <;> rfl
  | seen image => rw [hstage] at hj; cases hj
  | described description => rw [hstage] at hj; cases hj
  | settled outcome => rfl
  | done outcome => rfl

/-! ### Jobs that may be called off -/

/-- A request under way. An operation on the disk is pending from when it was handed over until it
takes effect. -/
structure Visit where
  disk : Disk
  job : Job
  pending : Bool := false
  dropped : Bool := false

namespace Visit

variable {w : Workshop} {s v u : Visit}

/-- The place of the file of the job. -/
def place (w : Workshop) (v : Visit) : Place := w.ownPlace v.disk v.job

/-- What happens next to a request. -/
inductive Move (w : Workshop) : Visit → Visit → Prop where
  /-- The job hands an operation over and waits for it. -/
  | hand {v : Visit} (hd : v.dropped = false) (hp : v.pending = false)
    (hs : v.job.stage.isOnDisk = true) : Move w v { v with pending := true }
  /-- The operation takes effect, or a model is called, and the job goes on. -/
  | step {v : Visit} {d : Disk} {j : Job} (hd : v.dropped = false)
    (hs : v.job.stage.isOnDisk = v.pending) (h : w.Step (v.disk, v.job) (d, j)) :
    Move w v ⟨d, j, false, false⟩
  /-- The job is called off where it waits. Of the call of a model some posts may have been made. -/
  | drop {v : Visit} (reactions : Nat → Reaction) {posts : List Post} (hd : v.dropped = false)
    (hs : v.job.stage.isOver = false) (hposts : v.job.posts <+: posts)
    (hcall : posts <+: (w.step reactions v.disk v.job).2.posts) :
    Move w v { v with
      disk := w.unguard v.disk v.job, job := { v.job with posts := posts }, dropped := true }
  /-- The operation takes effect when nobody waits for it any more. -/
  | late {v : Visit} {d : Disk} {j : Job} (hd : v.dropped = true) (hp : v.pending = true)
    (h : w.Step (v.disk, v.job) (d, j)) : Move w v { v with disk := d, pending := false }
  /-- Others use the disk, but not the place of the file. -/
  | others {v : Visit} {d : Disk} (hd : v.disk.Grown d)
    (hf : d.file? (place w v) = v.disk.file? (place w v)) : Move w v { v with disk := d }

/-- A request that was just read, with an identifier, and no file at the place of its own. -/
structure Opens (w : Workshop) (v : Visit) : Prop where
  received : v.job.stage = .received
  unposted : v.job.posts = []
  idle : v.pending = false
  waited_for : v.dropped = false
  parsed : ∃ limit r, Upload.ofRequest limit r = .ok v.job.upload
  isUuid : IsUuid v.job.uuid
  free : v.disk.file? (place w v) = none

/-- The job is done or called off, and nothing that it started is left to happen. -/
def Finished (v : Visit) : Prop :=
  v.pending = false ∧ (v.dropped = true ∨ ∃ outcome, v.job.stage = .done outcome)

theorem Opens.isNamed (h : Opens w v) : Workshop.IsNamed v.job :=
  Workshop.isNamed_of_parsed h.parsed h.isUuid

/-- What holds of a request from its opening `s` on. -/
structure Holds (w : Workshop) (s v : Visit) : Prop where
  grown : s.disk.Grown v.disk
  continues : Workshop.Continues s.job v.job
  onDisk : v.pending = true → v.job.stage.isOnDisk = true
  good : v.dropped = false → w.Good v.disk v.job
  /-- When the job is called off its file is gone, and only a pending write can bring it back. -/
  cleared : v.dropped = true → v.pending = true → v.disk.file? (place w s) = none
  left : v.dropped = true → ∀ content, v.disk.file? (place w s) = some content →
    v.job.stage = .housed ∧ content <+: s.job.upload.content

theorem Holds.place_eq (h : Holds w s v) : w.ownPlace v.disk v.job = place w s :=
  h.continues.ownPlace_eq h.grown

theorem Holds.isNamed (h : Holds w s v) (hn : Workshop.IsNamed s.job) :
    Workshop.IsNamed v.job := h.continues.isNamed hn

theorem Opens.holds (h : Opens w v) : Holds w v v where
  grown := .refl v.disk
  continues := .refl v.job
  onDisk hp := by
    rw [h.idle] at hp
    cases hp
  good _ := .of_received h.received h.unposted h.free
  cleared hd := by
    rw [h.waited_for] at hd
    cases hd
  left hd := by
    rw [h.waited_for] at hd
    cases hd

/-- What a late operation does: only a write brings a file to the place of the job. -/
theorem Holds.late (h : Holds w s v) (hn : Workshop.IsNamed s.job) (hd : v.dropped = true)
    (hp : v.pending = true) {d : Disk} (ha : w.Affects v.job v.disk d) :
    v.disk.Grown d ∧ ∀ content, d.file? (place w s) = some content →
      v.job.stage = .housed ∧ content <+: s.job.upload.content := by
  have hclear := h.cleared hd hp
  have hdisk := h.onDisk hp
  have habsent {P : Prop} {content : Bytes} (hf : v.disk.file? (place w s) = some content) : P := by
    rw [hclear] at hf
    cases hf
  unfold Workshop.Affects at ha
  cases hstage : v.job.stage with
  | received =>
    rw [hstage] at ha
    exact ⟨ha.toGrown, fun content hf => habsent (ha.file?_eq _ ▸ hf)⟩
  | housed =>
    rw [hstage] at ha
    rcases ha with rfl | ⟨part, hpart, hwrite⟩
    · exact ⟨.refl _, fun content hf => habsent hf⟩
    · obtain ⟨htouches, -, hfile⟩ := Workshop.write_own (h.isNamed hn) hwrite
      refine ⟨htouches.grown, fun content hf => ⟨rfl, ?_⟩⟩
      rw [h.place_eq, hf] at hfile
      cases hfile
      rwa [h.continues.upload_eq] at hpart
  | stored =>
    rw [hstage] at ha
    obtain rfl : d = v.disk := ha
    exact ⟨.refl _, fun content hf => habsent hf⟩
  | _ =>
    rw [hstage] at hdisk
    cases hdisk

/-- What one move keeps. -/
theorem Holds.move (h : Holds w s v) (hn : Workshop.IsNamed s.job) (hm : Move w v u) :
    Holds w s u := by
  cases hm with
  | hand hd hp hs =>
    exact ⟨h.grown, h.continues, fun _ => hs, h.good, fun hd' => (nomatch hd.symm.trans hd'),
      h.left⟩
  | @step d j hd hs hstep =>
    have hk := hstep.keeps (h.good hd) (h.isNamed hn)
    exact ⟨h.grown.trans hk.touches.grown, h.continues.trans hk.continues, fun hp => (nomatch hp),
      fun _ => hk.good, fun hd' => (nomatch hd'), fun hd' => (nomatch hd')⟩
  | drop reactions hd hs hposts hcall =>
    obtain ⟨htouches, hclear⟩ := (h.good hd).unguard (h.isNamed hn)
    rw [h.place_eq] at hclear
    refine ⟨h.grown.trans htouches.grown, ⟨h.continues.uuid_eq, h.continues.upload_eq⟩, h.onDisk,
      fun hd' => (nomatch hd'), fun _ _ => hclear, fun _ content hf => ?_⟩
    rw [hclear] at hf
    cases hf
  | late hd hp hstep =>
    obtain ⟨hgrown, hleft⟩ := h.late hn hd hp hstep.affects
    exact ⟨h.grown.trans hgrown, h.continues, fun hp' => (nomatch hp'),
      fun hd' => (nomatch hd.symm.trans hd'), fun _ hp' => (nomatch hp'), fun _ => hleft⟩
  | others hgrown hf =>
    have hplace : place w v = place w s := h.place_eq
    refine ⟨h.grown.trans hgrown, h.continues, h.onDisk, fun hd => (h.good hd).frame hgrown hf,
      fun hd hp => ?_, fun hd content hc => ?_⟩
    · rw [← hplace, hf, hplace]
      exact h.cleared hd hp
    · rw [← hplace, hf, hplace] at hc
      exact h.left hd content hc

/-- Along any moves, by induction on them. -/
theorem Opens.holds_of_reachable (hs : Opens w s) (h : Relation.ReflTransGen (Move w) s v) :
    Holds w s v := by
  induction h with
  | refl => exact hs.holds
  | tail _ hm ih => exact ih.move hs.isNamed hm

/-- An upload that can be kept is left behind when its job is called off before the file is
written. -/
theorem Opens.exists_left (hs : Opens w s) {path : String} {d : Disk}
    (h : Upload.store s.disk w.uploadDir s.job.uuid s.job.upload = (.ok path, d)) :
    ∃ v, Relation.ReflTransGen (Move w) s v ∧ v.dropped = true ∧ v.Finished ∧
      v.disk.file? (place w s) = some s.job.upload.content := by
  obtain ⟨disk, job, pending, dropped⟩ := s
  obtain rfl : pending = false := hs.idle
  obtain rfl : dropped = false := hs.waited_for
  obtain ⟨-, e, hhouse, hwrite⟩ := Upload.store_eq_ok h
  have hn := hs.isNamed
  have hreceived := hs.received
  have hfree := hs.free
  dsimp only [place] at hhouse hwrite hn hreceived hfree ⊢
  let housed : Job := { job with stage := .housed }
  have hfurnished := Disk.makeDirectories_furnished (Except.mapError_eq_ok_iff.1 hhouse)
  have hplace : w.ownPlace e housed = w.ownPlace disk job :=
    Workshop.ownPlace_of_grown hfurnished.toGrown job
  have hidle : w.unguard e housed = e := by
    refine Workshop.release_idle (j := housed) hn ?_
    rw [hplace, hfurnished.file?_eq]
    exact hfree
  have hown : d.file? (w.ownPlace disk job) = some job.upload.content := by
    rw [← hplace]
    exact (Workshop.write_own (j := housed) hn (Except.mapError_eq_ok_iff.1 hwrite)).2.2
  refine ⟨⟨d, housed, false, true⟩, ?_, rfl, ⟨rfl, .inl rfl⟩, hown⟩
  have hhand : Move w ⟨disk, job, false, false⟩ ⟨disk, job, true, false⟩ :=
    .hand rfl rfl (by rw [hreceived]; rfl)
  have hhouse' : Move w ⟨disk, job, true, false⟩ ⟨e, housed, false, false⟩ :=
    .step rfl (by rw [hreceived]; rfl) (.of_house hreceived hhouse)
  have hhand' : Move w ⟨e, housed, false, false⟩ ⟨e, housed, true, false⟩ := .hand rfl rfl rfl
  -- called off now, the job takes along a file that is not there yet
  have hdrop : Move w ⟨e, housed, true, false⟩ ⟨e, housed, true, true⟩ := by
    have hposts := w.posts_step (fun _ => .silence) e (j := housed) rfl
    have hmove : Move w ⟨e, housed, true, false⟩ ⟨w.unguard e housed, housed, true, true⟩ :=
      .drop _ rfl rfl List.prefix_rfl ⟨[], by rw [hposts, List.append_nil]⟩
    rwa [hidle] at hmove
  have hlate : Move w ⟨e, housed, true, true⟩ ⟨d, housed, false, true⟩ :=
    .late rfl rfl (.of_write rfl hwrite)
  exact (((Relation.ReflTransGen.single hhand).tail hhouse').tail hhand').tail hdrop |>.tail hlate

/-- When all is over, a file of a request is left only if its job was called off before the file was
written, and what is left is what was written of it then. This can happen to every upload that can
be kept. -/
theorem left_by_late_write (hs : Opens w s) :
    (∀ v, Relation.ReflTransGen (Move w) s v → v.Finished →
      ∀ content, v.disk.file? (place w s) = some content →
        v.dropped = true ∧ v.job.stage = .housed ∧ content <+: s.job.upload.content) ∧
      ∀ path d, Upload.store s.disk w.uploadDir s.job.uuid s.job.upload = (.ok path, d) →
        ∃ v, Relation.ReflTransGen (Move w) s v ∧ v.Finished ∧
          v.disk.file? (place w s) = some s.job.upload.content := by
  refine ⟨fun v hv hfinished content hf => ?_, fun path d hstore => ?_⟩
  · have hholds := hs.holds_of_reachable hv
    obtain ⟨-, hdropped | ⟨outcome, hdone⟩⟩ := hfinished
    · exact ⟨hdropped, hholds.left hdropped content hf⟩
    · cases hd : v.dropped with
      | true => exact ⟨rfl, hholds.left hd content hf⟩
      | false =>
        have habsent := (hholds.good hd).absent (by rw [hdone]; rfl)
        rw [hholds.place_eq, hf] at habsent
        cases habsent
  · obtain ⟨v, hv, -, hfinished, hfile⟩ := hs.exists_left hstore
    exact ⟨v, hv, hfinished, hfile⟩

end Visit

/-- A request with a design, on an empty disk. -/
def lonelyDesign : Visit where
  disk := {}
  job := { uuid := "3e0b1d1c-1a52-4b0c-9d6e-0f6f4d6c2a11", upload := design }

theorem opens_lonelyDesign (w : Workshop) : Visit.Opens w lonelyDesign where
  received := rfl
  unposted := rfl
  idle := rfl
  waited_for := rfl
  parsed := ⟨1000, designRequest, ofRequest_design (by decide +kernel)⟩
  isUuid := by decide
  free := Disk.file?_of_entries_nil rfl

theorem store_lonelyDesign : ∃ d, Upload.store lonelyDesign.disk "uploads" lonelyDesign.job.uuid
    lonelyDesign.job.upload = (.ok "uploads/3e0b1d1c-1a52-4b0c-9d6e-0f6f4d6c2a11-a.png", d) := by
  have hstore : (Upload.store lonelyDesign.disk "uploads" lonelyDesign.job.uuid
      lonelyDesign.job.upload).1 =
        .ok "uploads/3e0b1d1c-1a52-4b0c-9d6e-0f6f4d6c2a11-a.png" := by
    decide +kernel
  exact ⟨_, Prod.ext hstore rfl⟩

/-- The design is left behind whole, by a job that was called off while it was being written. -/
theorem lonelyDesign_left :
    let c : Config := {}
    let w : Workshop := ⟨.make c.backend.baseUrl .standard, c.pipeline, c.server.uploadDir⟩
    Visit.Opens w lonelyDesign ∧
      ∃ v, Relation.ReflTransGen (Visit.Move w) lonelyDesign v ∧ v.Finished ∧
        v.disk.file? (Visit.place w lonelyDesign) = some [104, 105] ∧
        v.dropped = true ∧ v.job.stage = .housed := by
  intro c w
  have hopens := opens_lonelyDesign w
  obtain ⟨d, hstore⟩ := store_lonelyDesign
  obtain ⟨honly, hcan⟩ := Visit.left_by_late_write hopens
  obtain ⟨v, hv, hfinished, hfile⟩ := hcan _ d hstore
  obtain ⟨hdropped, hhoused, -⟩ := honly v hv hfinished _ hfile
  exact ⟨hopens, v, hv, hfinished, hfile, hdropped, hhoused⟩

/-- A job that is called off may leave its file, though all that it started is over. -/
theorem dropped_keeps_file :
    let c : Config := {}
    let w : Workshop := ⟨.make c.backend.baseUrl .standard, c.pipeline, c.server.uploadDir⟩
    ¬ ∀ v, Relation.ReflTransGen (Visit.Move w) lonelyDesign v → v.dropped = true → v.Finished →
        v.disk.file? (Visit.place w lonelyDesign) = none := by
  intro c w hnone
  obtain ⟨d, hstore⟩ := store_lonelyDesign
  obtain ⟨v, hv, hdropped, hfinished, hfile⟩ := (opens_lonelyDesign w).exists_left hstore
  rw [hnone v hv hdropped hfinished] at hfile
  cases hfile

end Mockup.Server
