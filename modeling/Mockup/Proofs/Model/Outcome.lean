import Mockup.Proofs.Model.Call

/-! What a call comes to. An image that cannot be read ends it before anything is posted. Otherwise
one body is posted until a completion is heard or the budget is used up, and the failure then tells
what became of the last post. The image is read once: the file may change as soon as that is done.
-/

namespace Mockup.Model

/-! ### Failures of an attempt -/

/-- The failure that an end without a completion amounts to. An error page that breaks off is
replaced by a fixed text. -/
inductive Ending.Blames : Ending → Failure → Prop where
  | silence (reason : String) : Blames .silence (.connection reason)
  | lost (reason : String) : Blames (.lost reason) (.connection reason)
  | refused {status : Nat} (h : isSuccess status = false) (page : String) :
    Blames (.answer status (some page)) (.status status page)
  | refusedCut {status : Nat} (h : isSuccess status = false) :
    Blames (.answer status none) (.status status "Unknown error")
  | cut {status : Nat} (h : isSuccess status = true) (reason : String) :
    Blames (.answer status none) (.body reason)

namespace Client

variable {c : Client} {r : Request} {reactions : Nat → Reaction} {disks : Nat → Disk}

/-- What a post ends with: without a server that can be asked over HTTP, silence. -/
def meets (c : Client) (r : Reaction) : Ending := if c.target?.isSome then r.heard else .silence

theorem hears?_eq (c : Client) (r : Reaction) : c.hears? r = (c.meets r).said? := by
  unfold hears? meets
  split_ifs <;> rfl

theorem exists_reason_of_silent (c : Client) : ∃ reason, c.silent = .connection reason := by
  unfold silent
  split <;> exact ⟨_, rfl⟩

theorem blames_of_receive {r : Reaction} {e : Failure} (h : c.receive r = .error e) :
    (c.meets r).Blames e := by
  change (c.meets r).completion c.silent = .error e at h
  cases hr : c.meets r with
  | silence =>
    rw [hr] at h
    obtain ⟨reason, hreason⟩ := c.exists_reason_of_silent
    cases h
    rw [hreason]
    exact .silence reason
  | lost reason =>
    rw [hr] at h
    cases h
    exact .lost reason
  | answer status body =>
    rw [hr] at h
    dsimp only [Ending.completion] at h
    cases hs : Ending.isSuccess status with
    | true =>
      rw [hs, if_pos rfl] at h
      cases body with
      | none =>
        cases h
        exact .cut hs _
      | some page => cases h
    | false =>
      rw [hs, if_neg Bool.false_ne_true] at h
      cases h
      cases body with
      | none => exact .refusedCut hs
      | some page => exact .refused hs page

/-! ### A call and a disk that changes -/

/-- How far a call has come: its image is not read yet, or an attempt is next, with the body of all
attempts and with what was done so far, or it is over. -/
inductive Phase where
  | unread
  | trying (body : String) (number : UInt32) (posts : List Post) (pauses : List Span)
  | over (call : Call)

/-- What an attempt posts. -/
def posted (c : Client) (body : String) (r : Reaction) : List Post :=
  if c.target?.isSome then [c.post body r] else []

/-- The next step of a call: to read the image, or to make one attempt. At the next step the disk
may be another one. -/
def step (c : Client) (r : Request) (reactions : Nat → Reaction) (d : Disk) : Phase → Phase
  | .unread =>
    match image d r with
    | .error e => .over ⟨[], [], .error e⟩
    | .ok bytes => .trying (Query.about r.model r.prompt r.temperature bytes).body 1 [] []
  | .trying body n posts pauses =>
    let posts := posts ++ c.posted body (reactions n.toNat)
    match c.receive (reactions n.toNat) with
    | .ok text => .over ⟨posts, pauses, .ok text⟩
    | .error e =>
      if !e.isTransient then .over ⟨posts, pauses, .error e⟩
      else if c.policy.budget r.maxAttempts ≤ n then
        .over ⟨posts, pauses, .error (.exhausted c.endpoint n.toNat e)⟩
      else .trying body (n + 1) posts (pauses ++ [c.policy.delay])
  | .over call => .over call

/-- The phase of a call after so many steps. `disks` says how the disk is at each of them. -/
def phase (c : Client) (r : Request) (reactions : Nat → Reaction) (disks : Nat → Disk) : Nat → Phase
  | 0 => .unread
  | i + 1 => c.step r reactions (disks i) (c.phase r reactions disks i)

theorem phase_of_over {i j : Nat} {call : Call} (h : c.phase r reactions disks i = .over call)
    (hj : i ≤ j) : c.phase r reactions disks j = .over call := by
  obtain ⟨k, rfl⟩ := Nat.exists_eq_add_of_le hj
  induction k with
  | zero => exact h
  | succ k ih => rw [← Nat.add_assoc, phase, ih (Nat.le_add_right i k), step]

/-- The attempts from a number on are those of a run, whatever becomes of the disk. -/
theorem exists_over_of_trying {i : Nat} {body : String} {n : UInt32} {posts : List Post}
    {pauses : List Span} (h : c.phase r reactions disks i = .trying body n posts pauses) :
    let run := attemptFrom c.endpoint c.policy.delay (fun n => c.receive (reactions n))
      (c.policy.budget r.maxAttempts) n
    ∃ j, c.phase r reactions disks j =
      .over ⟨posts ++ run.attempts.flatMap fun n => c.posted body (reactions n.toNat),
        pauses ++ run.pauses, run.result⟩ := by
  dsimp only
  fun_induction attemptFrom c.endpoint c.policy.delay (fun n => c.receive (reactions n))
      (c.policy.budget r.maxAttempts) n generalizing i posts pauses with
  | case1 n text ho =>
    exact ⟨i + 1, by
      simp [phase, h, step, ho, Run.attempts, Run.pauses, Event.number?, Event.length?]⟩
  | case2 n e ho htransient =>
    exact ⟨i + 1, by
      simp [phase, h, step, ho, htransient, Run.attempts, Run.pauses, Event.number?, Event.length?]⟩
  | case3 n e ho htransient hspent =>
    exact ⟨i + 1, by
      simp [phase, h, step, ho, htransient, hspent, Run.attempts, Run.pauses, Event.number?,
        Event.length?]⟩
  | case4 n e ho htransient hspent rest =>
    rename_i ih
    have hnext : c.phase r reactions disks (i + 1) =
        .trying body (n + 1) (posts ++ c.posted body (reactions n.toNat))
          (pauses ++ [c.policy.delay]) := by
      simp [phase, h, step, ho, htransient, hspent]
    obtain ⟨j, hj⟩ := ih hnext
    refine ⟨j, hj.trans ?_⟩
    simp [rest, Run.attempts, Run.pauses, Event.number?, Event.length?, List.filterMap_cons]

theorem flatMap_posted (c : Client) (body : String) (reactions : Nat → Reaction)
    (ns : List UInt32) :
    (ns.flatMap fun n => c.posted body (reactions n.toNat)) =
      if c.target?.isSome then ns.map fun n => c.post body (reactions n.toNat) else [] := by
  unfold posted
  split_ifs
  · induction ns with
    | nil => rfl
    | cons n ns ih => rw [List.flatMap_cons, ih, List.map_cons, List.singleton_append]
  · induction ns with
    | nil => rfl
    | cons n ns ih => rw [List.flatMap_cons, ih, List.nil_append]

/-- A call over a disk that changes is the call over the disk that it began with. -/
theorem exists_over (c : Client) (r : Request) (reactions : Nat → Reaction) (disks : Nat → Disk) :
    ∃ i, ∀ j, i ≤ j → c.phase r reactions disks j = .over (c.generate (disks 0) r reactions) := by
  suffices h : ∃ i, c.phase r reactions disks i = .over (c.generate (disks 0) r reactions) by
    obtain ⟨i, hi⟩ := h
    exact ⟨i, fun j => phase_of_over hi⟩
  cases himage : image (disks 0) r with
  | error e => exact ⟨1, by simp [phase, step, generate, himage]⟩
  | ok bytes =>
    let body := (Query.about r.model r.prompt r.temperature bytes).body
    have hfirst : c.phase r reactions disks 1 = .trying body 1 [] [] := by
      simp only [phase, step, himage, body]
    obtain ⟨i, hi⟩ := exists_over_of_trying hfirst
    refine ⟨i, hi.trans ?_⟩
    rw [flatMap_posted, List.nil_append, List.nil_append, generate, himage]
    rfl

/-! ### All or nothing -/

/-- The image of a request, where it names none or the file that it names can be read. -/
inductive Shows (d : Disk) (r : Request) : Option Bytes → Prop where
  | nothing (h : r.image = none) : Shows d r none
  | file {path : String} {bytes : Bytes} (h : r.image = some path)
    (hread : d.read path = .ok bytes) : Shows d r (some bytes)

theorem generate_of_shows {d : Disk} {bytes : Option Bytes} (h : Shows d r bytes) :
    c.generate d r reactions = c.send r bytes reactions := by
  cases h with
  | nothing h => simp only [generate, image, h]
  | file h hread => simp only [generate, image, h, hread]

theorem generate_of_unreadable {d : Disk} {path : String} {e : DiskError} (h : r.image = some path)
    (hread : d.read path = .error e) :
    c.generate d r reactions = ⟨[], [], .error (.image path e.message)⟩ := by
  simp only [generate, image, h, hread]

/-- A call of `k` attempts with one body and a budget. It ends with the first completion that is
heard, or with the failure of the last attempt that the budget allows. -/
structure Concludes (c : Client) (budget : Nat) (body : String) (reactions : Nat → Reaction)
    (k : Nat) (call : Call) : Prop where
  pos : 1 ≤ k
  le_budget : k ≤ budget
  unheard : ∀ n, 1 ≤ n → n < k → (c.meets (reactions n)).said? = none
  posts_eq : call.posts =
    if c.target?.isSome then (List.range' 1 k).map fun n => c.post body (reactions n) else []
  result : (∃ text, (c.meets (reactions k)).said? = some text ∧ call.result = .ok text) ∨
    (c.meets (reactions k)).said? = none ∧ k = budget ∧
      ∃ last, (c.meets (reactions k)).Blames last ∧
        call.result = .error (.exhausted c.endpoint budget last)

theorem Sends.concludes {budget k : Nat} {body : String} {call : Call}
    (h : c.Sends budget body reactions k call) : c.Concludes budget body reactions k call where
  pos := h.pos
  le_budget := h.le_budget
  unheard n h₁ h₂ := by
    rw [← hears?_eq]
    exact h.unheard n h₁ h₂
  posts_eq := h.posts_eq
  result := by
    cases hs : (c.meets (reactions k)).said? with
    | some text => exact .inl ⟨text, rfl, h.result_of_heard text (by rw [hears?_eq, hs])⟩
    | none =>
      have hnone : c.hears? (reactions k) = none := by rw [hears?_eq, hs]
      obtain ⟨last, hlast, hresult⟩ := h.result_of_unheard hnone
      exact .inr ⟨rfl, h.spent hnone, last, blames_of_receive hlast, hresult⟩

/-- A call is all or nothing, and its failures are few. An image that cannot be read is told, and
nothing is posted. Otherwise every post has the same body, made of the image as it was read, and the
call comes to the first completion that is heard within the budget; if there is none, to an
exhausted budget, with what became of the last attempt. However the disk changes once the call has
begun, it takes this course. -/
theorem generate_all_or_nothing (c : Client) (r : Request) (reactions : Nat → Reaction)
    (disks : Nat → Disk) :
    let call := c.generate (disks 0) r reactions
    let budget := max 1 (r.maxAttempts.getD c.policy.maxAttempts).toNat
    (∃ i, ∀ j, i ≤ j → c.phase r reactions disks j = .over call) ∧
    (∀ path e, r.image = some path → (disks 0).read path = .error e →
      call.posts = [] ∧ call.result = .error (.image path e.message)) ∧
    (∀ bytes, Shows (disks 0) r bytes → ∃ k,
      c.Concludes budget (Query.about r.model r.prompt r.temperature bytes).body reactions k
        call) := by
  intro call budget
  refine ⟨c.exists_over r reactions disks, fun path e h hread => ?_, fun bytes hbytes => ?_⟩
  · have hcall : call = _ := generate_of_unreadable h hread
    rw [hcall]
    exact ⟨rfl, rfl⟩
  · have hbudget : (c.policy.budget r.maxAttempts).toNat = budget := RetryPolicy.toNat_raise _
    obtain ⟨k, hk⟩ := c.exists_sends r bytes reactions
    have hcall : call = _ := generate_of_shows hbytes
    rw [hbudget] at hk
    rw [hcall]
    exact ⟨k, hk.concludes⟩

end Client

end Mockup.Model
