import Mathlib.Logic.Function.Basic
import Mathlib.Logic.Relation
import Mockup.Proofs.Server.Job
import Mockup.Proofs.Server.Upload

/-! Many jobs at one disk. Whatever the order of their steps, and wherever the disk or a model
fails, each job touches a file of its own and no other, and the file is gone when the job is done.
-/

namespace Mockup.Server

open Model

/-! ### Steps -/

namespace Workshop

/-- A step of a job: the regular one, whatever the models make of it, or one in which the disk
fails. Where a directory cannot be made those above it may have been, and where a file cannot be
written a part of it may have been. -/
inductive Step (w : Workshop) : Disk × Job → Disk × Job → Prop where
  | regular (reactions : Nat → Reaction) (d : Disk) (j : Job) : Step w (d, j) (w.step reactions d j)
  | unhoused {d d' : Disk} {j : Job} (e : StoreError) (hj : j.stage = .received)
    (hd : d.Furnished d') : Step w (d, j) (d', { j with stage := .done (.error (storeFailure e)) })
  | unwritten {d : Disk} {j : Job} (e : StoreError) (hj : j.stage = .housed) :
    Step w (d, j) (d, { j with stage := .settled (.error (storeFailure e)) })
  | cut {d d' : Disk} {j : Job} (e : StoreError) (hj : j.stage = .housed) {part : Bytes}
    (hpart : part <+: j.upload.content) (hd : d.write (w.path j) part = .ok d') :
    Step w (d, j) (d', { j with stage := .settled (.error (storeFailure e)) })
  | unread {d : Disk} {j : Job} (e : Model.Failure) (hj : j.stage = .stored) :
    Step w (d, j) (d, { j with stage := .settled (.error (w.visionFailure e)) })

variable {w : Workshop} {d d' : Disk} {j j' : Job}

/-- Every step brings a job nearer to its end. -/
theorem Step.stepsLeft_le {p p' : Disk × Job} (h : w.Step p p') :
    stepsLeft p'.2.stage ≤ stepsLeft p.2.stage - 1 := by
  cases h with
  | regular reactions d j => exact stepsLeft_step w reactions d j
  | unhoused e hj hd => simp [hj, stepsLeft]
  | unwritten e hj => simp [hj, stepsLeft]
  | cut e hj hpart hd => simp [hj, stepsLeft]
  | unread e hj => simp [hj, stepsLeft]

/-! ### The file of a job -/

/-- The place of a job's file, directly in the upload directory. -/
def ownPlace (w : Workshop) (d : Disk) (j : Job) : Place :=
  d.placeOf w.uploadDir ++ [Upload.ownName j.uuid j.upload.filename]

/-- The path of a job's file leads to its place. -/
def Leads (w : Workshop) (d : Disk) (j : Job) : Prop :=
  d.Leads (w.path j) (d.placeOf w.uploadDir) (Upload.ownName j.uuid j.upload.filename)

/-- The name of a job's file holds no slash. -/
def IsNamed (j : Job) : Prop := '/' ∉ (Upload.ownName j.uuid j.upload.filename).toList

theorem path_getLast? (hn : IsNamed j) : (w.path j).toList.getLast? ≠ some '/' :=
  Disk.getLast?_join_ne_slash _ hn (Upload.ownName_ne_empty _ _)

theorem leads_of_path (hn : IsNamed j) {dir : Place} {name : String}
    (h : d.Leads (w.path j) dir name) : w.Leads d j ∧ dir ++ [name] = w.ownPlace d j := by
  obtain ⟨rfl, rfl⟩ := h.of_join hn (Upload.ownName_ne_empty _ _)
  exact ⟨h, rfl⟩

theorem placeOf_of_grown (h : d.Grown d') (path : String) : d'.placeOf path = d.placeOf path := by
  unfold Disk.placeOf Disk.origin
  rw [h.workplace_eq]

theorem ownPlace_of_grown (h : d.Grown d') (j : Job) : w.ownPlace d' j = w.ownPlace d j := by
  unfold ownPlace
  rw [placeOf_of_grown h]

theorem Leads.grown (hl : w.Leads d j) (h : d.Grown d') : w.Leads d' j := by
  unfold Leads
  rw [placeOf_of_grown h]
  exact Disk.Leads.grown hl h

/-- What a step of a job does to the disk: directories stay, and no other file is touched. -/
structure Touches (w : Workshop) (j : Job) (d d' : Disk) : Prop where
  grown : d.Grown d'
  file?_eq : ∀ p, p ≠ w.ownPlace d j → d'.file? p = d.file? p

theorem Touches.refl (w : Workshop) (j : Job) (d : Disk) : Touches w j d d :=
  ⟨.refl d, fun _ _ => rfl⟩

theorem Touches.of_furnished (h : d.Furnished d') (w : Workshop) (j : Job) : Touches w j d d' :=
  ⟨h.toGrown, fun p _ => h.file?_eq p⟩

/-- Writing puts the bytes at the place of the job. -/
theorem write_own (hn : IsNamed j) {content : Bytes} (h : d.write (w.path j) content = .ok d') :
    Touches w j d d' ∧ w.Leads d' j ∧ d'.file? (w.ownPlace d j) = some content := by
  obtain ⟨dir, name, hleads, -, hdir, rfl⟩ := Disk.write_eq_ok h
  obtain ⟨hown, hplace⟩ := leads_of_path hn hleads
  rw [hplace] at hdir ⊢
  have hgrown : d.Grown (d.set (w.ownPlace d j) (.file content)) := .set hdir _
  refine ⟨⟨hgrown, fun p hp => ?_⟩, hown.grown hgrown, ?_⟩
  · rw [Disk.file?_set hdir, if_neg hp]
  · rw [Disk.file?_set hdir, if_pos rfl]

/-- Without a file of the job nothing else is removed in its place. -/
theorem release_idle (hn : IsNamed j) (hf : d.file? (w.ownPlace d j) = none) :
    Upload.release d (w.path j) = d := by
  unfold Upload.release
  cases hr : d.remove (w.path j) with
  | error e => rfl
  | ok d' =>
    obtain ⟨dir, name, content, hleads, hfile, -⟩ := Disk.remove_eq_ok hr
    rw [(leads_of_path hn hleads).2, hf] at hfile
    cases hfile

/-- Releasing removes the file of the job, if there is one. -/
theorem release_own (hn : IsNamed j) (hl : d.file? (w.ownPlace d j) ≠ none → w.Leads d j) :
    Touches w j d (Upload.release d (w.path j)) ∧
      (Upload.release d (w.path j)).file? (w.ownPlace d j) = none := by
  cases hf : d.file? (w.ownPlace d j) with
  | none =>
    rw [release_idle hn hf]
    exact ⟨.refl w j d, hf⟩
  | some content =>
    have hremove := (hl (by simp [hf])).remove_eq hf (path_getLast? hn)
    have herase : Upload.release d (w.path j) = d.erase (w.ownPlace d j) := by
      unfold Upload.release
      rw [hremove]
      rfl
    have hdir : d.entry? (w.ownPlace d j) ≠ some .directory := by
      rw [Disk.file?_eq_some_iff.1 hf]
      simp
    rw [herase]
    refine ⟨⟨.erase hdir, fun p hp => ?_⟩, ?_⟩
    · rw [Disk.file?_erase hdir, if_neg hp]
    · rw [Disk.file?_erase hdir, if_pos rfl]

end Workshop

/-! ### What a job keeps -/

/-- The file of the job may be on the disk: between its writing and its removal. -/
def Stage.holds : Stage → Bool
  | .stored | .seen _ | .described _ | .settled _ => true
  | _ => false

/-- The file of the job is on the disk, whole. -/
def Stage.isKept : Stage → Bool
  | .stored | .seen _ | .described _ => true
  | _ => false

/-- No call is left to make. -/
def Stage.isOver : Stage → Bool
  | .settled _ | .done _ => true
  | _ => false

namespace Workshop

variable {w : Workshop} {d d' : Disk} {j j' : Job}

/-- The vision model was shown the job's own bytes, again and again, and then the code model was
asked. -/
def Posted (w : Workshop) (j : Job) (as bs : List Reaction) (description : String) : Prop :=
  j.posts = as.map (w.visionPost j.upload.content) ++ bs.map (w.codegenPost description)

/-- What was posted is told by the stage, up to the description. -/
def IsPosted (w : Workshop) (j : Job) : Prop :=
  ∃ as bs description, w.Posted j as bs description ∧ (j.stage.isOver = false → bs = [])

/-- What holds of a job between any two steps. -/
structure Good (w : Workshop) (d : Disk) (j : Job) : Prop where
  absent : j.stage.holds = false → d.file? (w.ownPlace d j) = none
  kept : j.stage.isKept = true → d.file? (w.ownPlace d j) = some j.upload.content
  leads : d.file? (w.ownPlace d j) ≠ none → w.Leads d j
  image_eq : ∀ image, j.stage = .seen image → image = some j.upload.content
  posted : w.IsPosted j

/-- A job that was just read. -/
theorem Good.of_received (hj : j.stage = .received) (hp : j.posts = [])
    (hf : d.file? (w.ownPlace d j) = none) : Good w d j := by
  refine ⟨fun _ => hf, fun hk => ?_, fun h => absurd hf h, fun image hi => ?_,
    [], [], "", hp, fun _ => rfl⟩
  · rw [hj] at hk
    cases hk
  · rw [hj] at hi
    cases hi

/-- The steps of other jobs do no harm. -/
theorem Good.frame (hg : Good w d j) (h : d.Grown d')
    (hf : d'.file? (w.ownPlace d j) = d.file? (w.ownPlace d j)) : Good w d' j where
  absent hj := by
    rw [ownPlace_of_grown h, hf]
    exact hg.absent hj
  kept hj := by
    rw [ownPlace_of_grown h, hf]
    exact hg.kept hj
  leads hj := by
    rw [ownPlace_of_grown h, hf] at hj
    exact (hg.leads hj).grown h
  image_eq := hg.image_eq
  posted := hg.posted

/-- The same upload, under the same name. -/
structure Continues (j j' : Job) : Prop where
  uuid_eq : j'.uuid = j.uuid
  upload_eq : j'.upload = j.upload

theorem Continues.ownPlace_eq (h : Continues j j') (hd : d.Grown d') :
    w.ownPlace d' j' = w.ownPlace d j := by
  unfold ownPlace
  rw [placeOf_of_grown hd, h.uuid_eq, h.upload_eq]

theorem Continues.refl (j : Job) : Continues j j := ⟨rfl, rfl⟩

theorem Continues.trans {k : Job} (h : Continues j j') (h' : Continues j' k) : Continues j k :=
  ⟨h'.uuid_eq.trans h.uuid_eq, h'.upload_eq.trans h.upload_eq⟩

theorem Continues.isNamed (h : Continues j j') (hn : IsNamed j) : IsNamed j' := by
  unfold IsNamed
  rw [h.uuid_eq, h.upload_eq]
  exact hn

/-- A step keeps what holds of its job. -/
structure Keeps (w : Workshop) (p p' : Disk × Job) : Prop where
  touches : w.Touches p.2 p.1 p'.1
  good : w.Good p'.1 p'.2
  continues : Continues p.2 p'.2

/-- A job goes on without a file. -/
theorem Keeps.of_absent (hc : Continues j j') (ht : w.Touches j d d')
    (hf : d'.file? (w.ownPlace d j) = none) (hs : j'.stage.isKept = false)
    (hp : w.IsPosted j') : w.Keeps (d, j) (d', j') := by
  rw [← hc.ownPlace_eq ht.grown] at hf
  refine ⟨ht, ⟨fun _ => hf, fun h => ?_, fun h => absurd hf h, fun image h => ?_, hp⟩, hc⟩
  · rw [hs] at h
    cases h
  · rw [h] at hs
    cases hs

/-- A job goes on with its file, which may be a part only when it is of no more use. -/
theorem Keeps.of_file (hc : Continues j j') (ht : w.Touches j d d') (hl : w.Leads d' j)
    {content : Bytes} (hf : d'.file? (w.ownPlace d j) = some content)
    (hs : j'.stage.holds = true) (hk : j'.stage.isKept = true → content = j.upload.content)
    (hi : ∀ image, j'.stage = .seen image → image = some j.upload.content)
    (hp : w.IsPosted j') : w.Keeps (d, j) (d', j') := by
  rw [← hc.ownPlace_eq ht.grown] at hf
  refine ⟨ht, ⟨fun h => ?_, fun h => ?_, fun _ => ?_, ?_, hp⟩, hc⟩
  · rw [hs] at h
    cases h
  · rw [hf, hk h, hc.upload_eq]
  · unfold Leads path
    rw [hc.uuid_eq, hc.upload_eq]
    exact hl
  · rw [hc.upload_eq]
    exact hi

theorem IsPosted.of_stage {stage : Stage} (h : w.IsPosted j)
    (ho : stage.isOver = false → j.stage.isOver = false) :
    w.IsPosted { j with stage := stage } := by
  obtain ⟨as, bs, description, hp, hb⟩ := h
  exact ⟨as, bs, description, hp, fun h => hb (ho h)⟩

theorem IsPosted.after_vision (h : w.IsPosted j) (hj : j.stage.isOver = false) (path : String)
    (reactions : Nat → Reaction) (stage : Stage) :
    w.IsPosted (j.after (w.client.send (w.visionRequest path) (some j.upload.content) reactions)
      stage) := by
  obtain ⟨as, bs, description, hp, hb⟩ := h
  obtain ⟨rs, hrs⟩ := w.send_vision_posts path j.upload.content reactions
  refine ⟨as ++ rs, [], description, ?_, fun _ => rfl⟩
  unfold Posted at hp ⊢
  rw [hb hj, List.map_nil, List.append_nil] at hp
  rw [List.map_nil, List.append_nil, List.map_append]
  exact congrArg₂ _ hp hrs

theorem IsPosted.after_codegen (h : w.IsPosted j) (hj : j.stage.isOver = false)
    (description : String) (reactions : Nat → Reaction) {stage : Stage} (hs : stage.isOver = true) :
    w.IsPosted (j.after (w.client.send (w.codegenRequest description) none reactions) stage) := by
  obtain ⟨as, bs, before, hp, hb⟩ := h
  obtain ⟨rs, hrs⟩ := w.send_codegen_posts description reactions
  refine ⟨as, rs, description, ?_, fun ho => ?_⟩
  · unfold Posted at hp ⊢
    rw [hb hj, List.map_nil, List.append_nil] at hp
    exact congrArg₂ _ hp hrs
  · exact absurd (hs.symm.trans ho) (by decide)

/-! ### One step -/

theorem Good.whole_of_kept (hg : Good w d j) (hn : IsNamed j) (h : j.stage.isKept = true) :
    d.file? (w.ownPlace d j) = some j.upload.content ∧ w.Leads d j ∧
      d.read (w.path j) = .ok j.upload.content := by
  have hf := hg.kept h
  have hl := hg.leads (by simp [hf])
  exact ⟨hf, hl, hl.read_eq hf (path_getLast? hn)⟩

/-- A step that leaves the disk alone keeps the file where it is. -/
theorem Good.keeps_still (hg : Good w d j) (hn : IsNamed j) (h : j.stage.isKept = true)
    (hc : Continues j j') (hs : j'.stage.holds = true)
    (hi : ∀ image, j'.stage = .seen image → image = some j.upload.content)
    (hp : w.IsPosted j') : w.Keeps (d, j) (d, j') := by
  obtain ⟨hf, hl, -⟩ := hg.whole_of_kept hn h
  exact .of_file hc (.refl w j d) hl hf hs (fun _ => rfl) hi hp

/-- A job without a file waits or fails, whatever directories are made for it. -/
theorem Good.keeps_absent (hg : Good w d j) (h : j.stage.holds = false) (hd : d.Furnished d')
    {stage : Stage} (hs : stage.isKept = false)
    (ho : stage.isOver = false → j.stage.isOver = false) :
    w.Keeps (d, j) (d', { j with stage := stage }) :=
  .of_absent ⟨rfl, rfl⟩ (.of_furnished hd w j) ((hd.file?_eq _).trans (hg.absent h)) hs
    (hg.posted.of_stage ho)

theorem visionOutcome_holds (w : Workshop) (r : Except Model.Failure String) :
    (w.visionOutcome r).holds = true := by
  cases r <;> rfl

theorem visionOutcome_ne_seen (w : Workshop) (r : Except Model.Failure String)
    (image : Option Bytes) : w.visionOutcome r ≠ .seen image := by
  cases r <;> exact fun h => (nomatch h)

/-- The directory is made or the job fails, and there is no file yet. -/
theorem Good.keeps_received (hg : Good w d j) (hstage : j.stage = .received)
    (reactions : Nat → Reaction) : w.Keeps (d, j) (w.step reactions d j) := by
  have hh : j.stage.holds = false := by rw [hstage]; rfl
  unfold step
  rw [hstage]
  cases hhouse : Upload.house d w.uploadDir with
  | ok d' =>
    have hf := Disk.makeDirectories_furnished (Except.mapError_eq_ok_iff.1 hhouse)
    exact hg.keeps_absent hh hf rfl fun _ => by rw [hstage]; rfl
  | error e => exact hg.keeps_absent hh (.refl d) rfl fun h => by cases h

/-- The file is written as a whole, or not at all. -/
theorem Good.keeps_housed (hg : Good w d j) (hn : IsNamed j) (hstage : j.stage = .housed)
    (reactions : Nat → Reaction) : w.Keeps (d, j) (w.step reactions d j) := by
  have hh : j.stage.holds = false := by rw [hstage]; rfl
  unfold step
  rw [hstage]
  cases hwrite : Upload.write d (w.path j) j.upload with
  | ok d' =>
    obtain ⟨ht, hl, hf⟩ := write_own hn (Except.mapError_eq_ok_iff.1 hwrite)
    exact .of_file ⟨rfl, rfl⟩ ht hl hf rfl (fun _ => rfl) (fun _ h => by cases h)
      (hg.posted.of_stage fun _ => by rw [hstage]; rfl)
  | error e => exact hg.keeps_absent hh (.refl d) rfl fun h => by cases h

/-- A regular step, stage by stage. -/
theorem step_keeps (hg : Good w d j) (hn : IsNamed j) (reactions : Nat → Reaction) :
    w.Keeps (d, j) (w.step reactions d j) := by
  cases hstage : j.stage with
  | received => exact hg.keeps_received hstage reactions
  | housed => exact hg.keeps_housed hn hstage reactions
  | stored =>
    have hk : j.stage.isKept = true := by rw [hstage]; rfl
    obtain ⟨-, -, hread⟩ := hg.whole_of_kept hn hk
    rw [step_stored reactions hstage hread]
    exact hg.keeps_still hn hk ⟨rfl, rfl⟩ rfl (fun _ h => by cases h; rfl)
      (hg.posted.of_stage fun _ => by rw [hstage]; rfl)
  | seen image =>
    have hk : j.stage.isKept = true := by rw [hstage]; rfl
    have ho : j.stage.isOver = false := by rw [hstage]; rfl
    rw [step_seen reactions d hstage, hg.image_eq image hstage]
    have hp := hg.posted.after_vision ho (w.path j) fun n => reactions (j.posts.length + n)
    refine hg.keeps_still hn hk ⟨rfl, rfl⟩ ?_ ?_ (hp _)
    · exact visionOutcome_holds w _
    · exact fun image h => absurd h (visionOutcome_ne_seen w _ image)
  | described description =>
    have hk : j.stage.isKept = true := by rw [hstage]; rfl
    have ho : j.stage.isOver = false := by rw [hstage]; rfl
    rw [step_described reactions d hstage]
    exact hg.keeps_still hn hk ⟨rfl, rfl⟩ rfl (fun _ h => by cases h)
      (hg.posted.after_codegen ho description _ rfl)
  | settled outcome =>
    unfold step
    rw [hstage]
    obtain ⟨ht, hf⟩ := release_own hn hg.leads
    exact .of_absent ⟨rfl, rfl⟩ ht hf rfl (hg.posted.of_stage fun h => by cases h)
  | done outcome =>
    unfold step
    rw [hstage]
    have hh : j.stage.holds = false := by rw [hstage]; rfl
    exact hg.keeps_absent hh (.refl d) (by rw [hstage]; rfl) id

theorem Step.keeps {p p' : Disk × Job} (h : w.Step p p') (hg : Good w p.1 p.2)
    (hn : IsNamed p.2) : w.Keeps p p' := by
  cases h with
  | regular reactions d j => exact step_keeps hg hn reactions
  | unhoused e hj hd =>
    exact hg.keeps_absent (by rw [hj]; rfl) hd rfl fun h => by cases h
  | @unwritten d j e hj =>
    exact hg.keeps_absent (by rw [hj]; rfl) (.refl d) rfl fun h => by cases h
  | cut e hj hpart hd =>
    obtain ⟨ht, hl, hf⟩ := write_own hn hd
    exact .of_file ⟨rfl, rfl⟩ ht hl hf rfl (fun h => by cases h) (fun _ h => by cases h)
      (hg.posted.of_stage fun h => by cases h)
  | unread e hj =>
    exact hg.keeps_still hn (by rw [hj]; rfl) ⟨rfl, rfl⟩ rfl (fun _ h => by cases h)
      (hg.posted.of_stage fun h => by cases h)

end Workshop

/-! ### Many jobs -/

/-- The disk, and the jobs of all requests. -/
structure Shop (ι : Type) where
  disk : Disk
  jobs : ι → Job

def isUuidChar (c : Char) : Bool := c.isDigit || ('a' ≤ c && c ≤ 'f') || c == '-'

/-- An identifier of 36 hexadecimal digits and hyphens. -/
def IsUuid (s : String) : Prop := s.length = 36 ∧ s.toList.all isUuidChar = true

instance (s : String) : Decidable (IsUuid s) := inferInstanceAs (Decidable (_ ∧ _))

theorem slash_notMem_of_isUuid {s : String} (h : IsUuid s) : '/' ∉ s.toList :=
  fun hslash => absurd (List.all_eq_true.1 h.2 '/' hslash) (by decide)

theorem Workshop.isNamed_of_parsed {j : Job}
    (hj : ∃ limit r, Upload.ofRequest limit r = .ok j.upload) (hu : IsUuid j.uuid) :
    IsNamed j := by
  obtain ⟨limit, r, hr⟩ := hj
  exact Upload.slash_notMem_ownName (slash_notMem_of_isUuid hu) (Upload.slash_notMem_filename hr)

namespace Shop

variable {ι : Type} {w : Workshop} {s t u : Shop ι}

/-- Requests that were just read, with identifiers of their own, none of which starts the name of a
file that is in the upload directory. -/
structure Opens (w : Workshop) (s : Shop ι) : Prop where
  received : ∀ i, (s.jobs i).stage = .received
  unposted : ∀ i, (s.jobs i).posts = []
  parsed : ∀ i, ∃ limit r, Upload.ofRequest limit r = .ok (s.jobs i).upload
  isUuid : ∀ i, IsUuid (s.jobs i).uuid
  distinct : ∀ i k, (s.jobs i).uuid = (s.jobs k).uuid → i = k
  fresh : ∀ i name, (s.jobs i).uuid.toList <+: name.toList →
    s.disk.file? (s.disk.placeOf w.uploadDir ++ [name]) = none

/-- One of the jobs takes a step. -/
def Move [DecidableEq ι] (w : Workshop) (s t : Shop ι) : Prop :=
  ∃ i d j, w.Step (s.disk, s.jobs i) (d, j) ∧ t = ⟨d, Function.update s.jobs i j⟩

/-- The place of the file of a job. -/
def place (w : Workshop) (s : Shop ι) (i : ι) : Place := w.ownPlace s.disk (s.jobs i)

theorem Opens.isNamed (h : Opens w s) (i : ι) : Workshop.IsNamed (s.jobs i) :=
  Workshop.isNamed_of_parsed (h.parsed i) (h.isUuid i)

/-- Every job has a place of its own. -/
theorem Opens.place_injective (h : Opens w s) {i k : ι} (hp : place w s i = place w s k) :
    i = k := by
  have hname := List.append_cancel_left hp
  have hlen : (s.jobs i).uuid.length = (s.jobs k).uuid.length :=
    (h.isUuid i).1.trans (h.isUuid k).1.symm
  exact h.distinct i k (Upload.uuid_eq_of_ownName hlen (List.singleton_inj.1 hname))

/-- No file is at the place of a job when it comes in. -/
theorem Opens.place_free (h : Opens w s) (i : ι) : s.disk.file? (place w s i) = none := by
  refine h.fresh i _ ?_
  rw [Upload.ownName, String.toList_append, String.toList_append, List.append_assoc]
  exact List.prefix_append _ _

/-- What holds from the first requests `s` on. -/
structure Sound (w : Workshop) (s t : Shop ι) : Prop where
  grown : s.disk.Grown t.disk
  continues : ∀ i, Workshop.Continues (s.jobs i) (t.jobs i)
  good : ∀ i, w.Good t.disk (t.jobs i)
  others : ∀ p, (∀ i, p ≠ place w s i) → t.disk.file? p = s.disk.file? p

theorem Sound.place_eq (h : Sound w s t) (i : ι) : place w t i = place w s i :=
  (h.continues i).ownPlace_eq h.grown

theorem Opens.sound (h : Opens w s) : Sound w s s where
  grown := .refl s.disk
  continues i := .refl (s.jobs i)
  good i := .of_received (h.received i) (h.unposted i) (h.place_free i)
  others _ _ := rfl

/-- A step of one job leaves alone what the others rely on. -/
theorem Sound.move [DecidableEq ι] (hs : Opens w s) (h : Sound w s t) (hm : Move w t u) :
    Sound w s u := by
  obtain ⟨i, d, j, hstep, rfl⟩ := hm
  have hk := hstep.keeps (h.good i) ((h.continues i).isNamed (hs.isNamed i))
  have hplace := h.place_eq
  refine ⟨h.grown.trans hk.touches.grown, fun k => ?_, fun k => ?_, fun p hp => ?_⟩
  · by_cases hik : k = i
    · subst hik
      dsimp only
      rw [Function.update_self]
      exact (h.continues k).trans hk.continues
    · dsimp only
      rw [Function.update_of_ne hik]
      exact h.continues k
  · by_cases hik : k = i
    · subst hik
      dsimp only
      rw [Function.update_self]
      exact hk.good
    · dsimp only
      rw [Function.update_of_ne hik]
      refine (h.good k).frame hk.touches.grown (hk.touches.file?_eq _ fun he => hik ?_)
      exact hs.place_injective (((hplace k).symm.trans he).trans (hplace i))
  · have hne : p ≠ place w t i := by
      rw [hplace i]
      exact hp i
    exact (hk.touches.file?_eq p hne).trans (h.others p hp)

/-- The file of a job is there from its writing to its removal only. -/
theorem Sound.holds (h : Sound w s t) {i : ι} (hf : t.disk.file? (place w s i) ≠ none) :
    (t.jobs i).stage.holds = true := by
  by_contra hholds
  rw [Bool.not_eq_true] at hholds
  have habsent := (h.good i).absent hholds
  exact hf (h.place_eq i ▸ habsent)

/-- When all jobs are done, the files are the first ones. -/
theorem Sound.cleared (hs : Opens w s) (h : Sound w s t)
    (hdone : ∀ i, ∃ outcome, (t.jobs i).stage = .done outcome) (p : Place) :
    t.disk.file? p = s.disk.file? p := by
  by_cases hp : ∃ i, p = place w s i
  · obtain ⟨i, rfl⟩ := hp
    obtain ⟨outcome, ho⟩ := hdone i
    rw [hs.place_free i]
    by_contra hf
    have hholds := h.holds hf
    rw [ho] at hholds
    cases hholds
  · exact h.others p fun i hi => hp ⟨i, hi⟩

/-- Along any order of steps, by induction on them. -/
theorem sound_of_reachable [DecidableEq ι] (hs : Opens w s)
    (h : Relation.ReflTransGen (Move w) s t) : Sound w s t := by
  induction h with
  | refl => exact hs.sound
  | tail _ hm ih => exact ih.move hs hm

/-- What the requests `s` have come to: the files on the disk, and what was posted. -/
structure Tidy (w : Workshop) (s t : Shop ι) : Prop where
  /-- Every job has at most one file, directly in the upload directory, and no two share it. -/
  direct : ∀ i, ∃ name, place w s i = s.disk.placeOf w.uploadDir ++ [name]
  apart : ∀ i k, place w s i = place w s k → i = k
  /-- All other files are the ones that were there. -/
  free : ∀ i, s.disk.file? (place w s i) = none
  others : ∀ p, (∀ i, p ≠ place w s i) → t.disk.file? p = s.disk.file? p
  /-- The file of a job is there from its writing to its removal only. -/
  held : ∀ i, t.disk.file? (place w s i) ≠ none → (t.jobs i).stage.holds = true
  kept : ∀ i, (t.jobs i).stage.isKept = true →
    t.disk.file? (place w s i) = some (s.jobs i).upload.content
  /-- What the vision model is shown are the bytes of the job's own file. -/
  posted : ∀ i, ∃ (as bs : List Reaction) (description : String), (t.jobs i).posts =
    as.map (w.visionPost (s.jobs i).upload.content) ++ bs.map (w.codegenPost description)
  cleared : (∀ i, ∃ outcome, (t.jobs i).stage = .done outcome) →
    ∀ p, t.disk.file? p = s.disk.file? p

/-- However the steps of the jobs are interleaved and wherever they fail, uploads never mix, and
nothing is left of them when the jobs are done. -/
theorem tidy_of_reachable [DecidableEq ι] (hs : Opens w s)
    (h : Relation.ReflTransGen (Move w) s t) : Tidy w s t := by
  have hsound := sound_of_reachable hs h
  refine ⟨fun i => ⟨_, rfl⟩, fun i k => hs.place_injective, hs.place_free, hsound.others,
    fun i => hsound.holds, fun i hk => ?_, fun i => ?_, hsound.cleared hs⟩
  · have hfile := (hsound.good i).kept hk
    rw [(hsound.continues i).upload_eq] at hfile
    exact hsound.place_eq i ▸ hfile
  · obtain ⟨as, bs, description, hp, -⟩ := (hsound.good i).posted
    unfold Workshop.Posted at hp
    rw [(hsound.continues i).upload_eq] at hp
    exact ⟨as, bs, description, hp⟩

/-- The jobs take steps in an order, whatever comes of them. -/
inductive Moves [DecidableEq ι] (w : Workshop) : List ι → Shop ι → Shop ι → Prop where
  | none (s : Shop ι) : Moves w [] s s
  | next {i : ι} {order : List ι} {s t : Shop ι} {d : Disk} {j : Job}
    (h : w.Step (s.disk, s.jobs i) (d, j))
    (hrest : Moves w order ⟨d, Function.update s.jobs i j⟩ t) : Moves w (i :: order) s t

namespace Moves

variable [DecidableEq ι] {order : List ι}

theorem reachable (h : Moves w order s t) : Relation.ReflTransGen (Move w) s t := by
  induction h with
  | none s => exact .refl
  | next h _ ih => exact .head ⟨_, _, _, h, rfl⟩ ih

/-- Every step of a job counts, also one that fails. -/
theorem stepsLeft_le (h : Moves w order s t) (i : ι) :
    Workshop.stepsLeft (t.jobs i).stage ≤
      Workshop.stepsLeft (s.jobs i).stage - order.count i := by
  induction h with
  | none s => exact Nat.le_refl _
  | @next k order s t d j h _ ih =>
    have hstep := h.stepsLeft_le
    dsimp only at ih hstep
    by_cases hik : i = k
    · subst hik
      rw [Function.update_self] at ih
      rw [List.count_cons_self]
      omega
    · rw [Function.update_of_ne hik] at ih
      rwa [List.count_cons_of_ne (Ne.symm hik)]

/-- Requests that are not kept waiting are done, and have left nothing. -/
theorem finished (hs : Opens w s) (h : Moves w order s t)
    (horder : ∀ i, Workshop.stepsLeft .received ≤ order.count i) :
    (∀ i, ∃ outcome, (t.jobs i).stage = .done outcome) ∧
      ∀ p, t.disk.file? p = s.disk.file? p := by
  have hdone (i : ι) : ∃ outcome, (t.jobs i).stage = .done outcome := by
    have hleft := h.stepsLeft_le i
    rw [hs.received i, Nat.sub_eq_zero_of_le (horder i), Nat.le_zero] at hleft
    exact Workshop.done_of_stepsLeft hleft
  exact ⟨hdone, (sound_of_reachable hs h.reachable).cleared hs hdone⟩

end Moves

/-- A regular step of a job. -/
def act [DecidableEq ι] (w : Workshop) (reactions : Nat → Reaction) (s : Shop ι) (i : ι) : Shop ι :=
  ⟨(w.step reactions s.disk (s.jobs i)).1,
    Function.update s.jobs i (w.step reactions s.disk (s.jobs i)).2⟩

theorem reachable_acts [DecidableEq ι] (w : Workshop) (reactions : Nat → Reaction) (s : Shop ι)
    (order : List ι) : Relation.ReflTransGen (Move w) s (order.foldl (act w reactions) s) := by
  induction order generalizing s with
  | nil => exact .refl
  | cons i order ih =>
    exact .head ⟨i, _, _, .regular reactions s.disk (s.jobs i), rfl⟩ (ih (act w reactions s i))

end Shop

/-- Two requests with the same design. -/
def twoDesigns : Shop Bool where
  disk := {}
  jobs i := {
    uuid :=
      if i then "3e0b1d1c-1a52-4b0c-9d6e-0f6f4d6c2a11" else "9f8e7d6c-5b4a-4c3d-8e2f-1a0b9c8d7e6f"
    upload := design }

theorem opens_twoDesigns (w : Workshop) : Shop.Opens w twoDesigns where
  received i := rfl
  unposted i := rfl
  parsed i := ⟨1000, designRequest, ofRequest_design (by decide +kernel)⟩
  isUuid i := by cases i <;> decide
  distinct i k h := by
    cases i <;> cases k <;> first | rfl | exact absurd h (by decide)
  fresh i name _ := Disk.file?_of_entries_nil rfl

/-- The first request is at the vision model while the second is stored, and is done before it. -/
theorem tidy_twoDesigns :
    let c : Config := {}
    let w : Workshop := ⟨.make c.backend.baseUrl .standard, c.pipeline, c.server.uploadDir⟩
    let order := [true, true, true, false, true, false, false, true, true, false, false, false]
    Shop.Opens w twoDesigns ∧
      Shop.Tidy w twoDesigns
        (order.foldl (Shop.act w fun _ => .answer 200 (some "text")) twoDesigns) :=
  ⟨opens_twoDesigns _, Shop.tidy_of_reachable (opens_twoDesigns _)
    (Shop.reachable_acts _ _ twoDesigns _)⟩

end Mockup.Server
