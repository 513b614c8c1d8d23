import Mockup.Proofs.Json.Token

/-! The machine that builds a value from tokens. Its state tells the tokens that it has taken, so a
value that it comes to is spelled by them; and it takes the tokens of every value that does not open
more containers at once than are allowed. Texts are therefore read by the grammar: a text is read as
a value exactly if it is a text of that value. -/

namespace Mockup.Json

/-! ### The tokens that were taken -/

/-- The tokens of items, each with a comma behind it. -/
def spelledItems (xs : List Json) : List Token := xs.flatMap fun x => spelling x ++ [.comma]

def spelledMembers (ms : List (String × Json)) : List Token :=
  ms.flatMap fun m => .text m.1 :: .colon :: (spelling m.2 ++ [.comma])

-- A frame holds the last item first.
def spelledStack : List Frame → List Token
  | [] => []
  | .items done :: stack => spelledStack stack ++ .openBracket :: spelledItems done.reverse
  | .members done k :: stack =>
    spelledStack stack ++ .openBrace :: (spelledMembers done.reverse ++ [.text k, .colon])

/-- The tokens that a state has taken. -/
def State.spelled : State → List Token
  | ⟨stack, .value⟩ => spelledStack stack
  | ⟨stack, .firstItem⟩ => spelledStack stack ++ [.openBracket]
  | ⟨stack, .firstName⟩ => spelledStack stack ++ [.openBrace]
  | ⟨stack, .name done⟩ => spelledStack stack ++ .openBrace :: spelledMembers done.reverse
  | ⟨stack, .colon done k⟩ =>
    spelledStack stack ++ .openBrace :: (spelledMembers done.reverse ++ [.text k])
  | ⟨stack, .finished v⟩ => spelledStack stack ++ spelling v

theorem spelledItems_concat (xs : List Json) (v : Json) :
    spelledItems (xs ++ [v]) = spelledItems xs ++ (spelling v ++ [.comma]) := by
  simp [spelledItems]

theorem spelledMembers_concat (ms : List (String × Json)) (k : String) (v : Json) :
    spelledMembers (ms ++ [(k, v)]) =
      spelledMembers ms ++ .text k :: .colon :: (spelling v ++ [.comma]) := by
  simp [spelledMembers]

theorem spellingItems_concat (xs : List Json) (v : Json) : spellingItems (xs ++ [v]) =
    .comma :: (spelledItems xs ++ (spelling v ++ [.closeBracket])) := by
  induction xs with
  | nil => simp [spellingItems, spelledItems]
  | cons x xs ih => simpa [spellingItems, spelledItems] using ih

theorem spellingMembers_append (ms : List (String × Json)) (k : String) (v : Json)
    (rest : List (String × Json)) : spellingMembers (ms ++ (k, v) :: rest) = .comma ::
      (spelledMembers ms ++ .text k :: .colon :: (spelling v ++ spellingMembers rest)) := by
  induction ms with
  | nil => simp [spellingMembers, spelledMembers]
  | cons m ms ih => simpa [spellingMembers, spelledMembers] using ih

theorem spelling_array (xs : List Json) (v : Json) : spelling (array (xs ++ [v])) =
    .openBracket :: (spelledItems xs ++ (spelling v ++ [.closeBracket])) := by
  cases xs with
  | nil => simp [spelling, spellingItems, spelledItems]
  | cons x xs => simp [spelling, spellingItems_concat, spelledItems]

theorem spelling_object (ms : List (String × Json)) (k : String) (v : Json)
    (rest : List (String × Json)) : spelling (object (ms ++ (k, v) :: rest)) = .openBrace ::
      (spelledMembers ms ++ .text k :: .colon :: (spelling v ++ spellingMembers rest)) := by
  cases ms with
  | nil => simp [spelling, spelledMembers]
  | cons m ms => simp [spelling, spellingMembers_append, spelledMembers]

/-! ### The containers that are open -/

theorem depthItems_le_iff {xs : List Json} {n : Nat} :
    depthItems xs ≤ n ↔ ∀ v ∈ xs, depth v ≤ n := by
  induction xs with
  | nil => simp [depthItems]
  | cons x xs ih => rw [depthItems, Nat.max_le, ih, List.forall_mem_cons]

theorem depthMembers_le_iff {ms : List (String × Json)} {n : Nat} :
    depthMembers ms ≤ n ↔ ∀ m ∈ ms, depth m.2 ≤ n := by
  induction ms with
  | nil => simp [depthMembers]
  | cons m ms ih => rw [depthMembers, Nat.max_le, ih, List.forall_mem_cons]

def Frame.values : Frame → List Json
  | .items done => done
  | .members done _ => done.map (·.2)

/-- Below the values that an open container holds there is room for what they open. -/
def StackFits : List Frame → Prop
  | [] => True
  | f :: stack =>
    (∀ v ∈ f.values, stack.length + 1 + depth v ≤ maxOpen) ∧ stack.length < maxOpen ∧
      StackFits stack

def State.Fits : State → Prop
  | ⟨stack, .value⟩ => StackFits stack
  | ⟨stack, .firstItem⟩ => StackFits (.items [] :: stack)
  | ⟨stack, .firstName⟩ => StackFits (.members [] "" :: stack)
  | ⟨stack, .name done⟩ => StackFits (.members done "" :: stack)
  | ⟨stack, .colon done k⟩ => StackFits (.members done k :: stack)
  | ⟨stack, .finished v⟩ => stack.length + depth v ≤ maxOpen ∧ StackFits stack

theorem StackFits.length_le {stack : List Frame} (h : StackFits stack) :
    stack.length ≤ maxOpen := by
  cases stack with
  | nil => exact Nat.zero_le _
  | cons f stack => exact h.2.1

/-- A value that was read, and those that were read before in the same container, stay within the
bound where the container is open. -/
theorem State.Fits.depth_le {f : Frame} {stack : List Frame} {v x : Json}
    (h : State.Fits ⟨f :: stack, .finished v⟩) (hx : x = v ∨ x ∈ f.values) :
    stack.length + 1 + depth x ≤ maxOpen := by
  obtain ⟨hv, hvalues, -, -⟩ := h
  rcases hx with rfl | hx
  · exact hv
  · exact hvalues x hx

theorem fits_array {stack : List Frame} {done : List Json} {v : Json}
    (h : State.Fits ⟨.items done :: stack, .finished v⟩) :
    State.Fits ⟨stack, .finished (array (done.reverse ++ [v]))⟩ := by
  refine ⟨?_, h.2.2.2⟩
  have hroom : stack.length < maxOpen := h.2.2.1
  have hitems : depthItems (done.reverse ++ [v]) ≤ maxOpen - (stack.length + 1) := by
    refine depthItems_le_iff.2 fun x hx => ?_
    have hx' := h.depth_le (x := x) (by simpa [Frame.values, or_comm] using hx)
    omega
  rw [depth]
  omega

theorem fits_object {stack : List Frame} {done : List (String × Json)} {k : String} {v : Json}
    (h : State.Fits ⟨.members done k :: stack, .finished v⟩) :
    State.Fits ⟨stack, .finished (object (done.reverse ++ [(k, v)]))⟩ := by
  refine ⟨?_, h.2.2.2⟩
  have hroom : stack.length < maxOpen := h.2.2.1
  have hmembers : depthMembers (done.reverse ++ [(k, v)]) ≤ maxOpen - (stack.length + 1) := by
    refine depthMembers_le_iff.2 fun m hm => ?_
    have hvalue : m.2 = v ∨ m.2 ∈ (Frame.members done k).values := by
      rw [List.mem_append, List.mem_reverse, List.mem_singleton] at hm
      exact hm.symm.imp (congrArg Prod.snd) List.mem_map_of_mem
    have hm' := h.depth_le hvalue
    omega
  rw [depth]
  omega

/-! ### Steps -/

/-- The token is a value of its own, or no value at all. -/
def Token.IsSimple : Token → Prop
  | scalar v => spelling v = [.scalar v] ∧ depth v = 0
  | _ => True

theorem Token.Written.isSimple {t : Token} {w : List Char} (h : t.Written w) : t.IsSimple := by
  cases h <;> simp [Token.IsSimple, spelling, depth]

/-- The state has taken these tokens, and no more containers were open than are allowed. -/
structure State.Took (st : State) (ts : List Token) : Prop where
  spelled : st.spelled = ts
  fits : st.Fits

theorem took_startValue? {stack : List Frame} {t : Token} {st : State}
    (h : State.startValue? stack t = some st) (ht : t.IsSimple) (hstack : StackFits stack) :
    st.Took (spelledStack stack ++ [t]) := by
  have hlength := hstack.length_le
  unfold State.startValue? at h
  split at h
  · cases h
    refine ⟨congrArg _ ht.1, ?_, hstack⟩
    rw [ht.2]
    exact hlength
  · cases h
    exact ⟨rfl, hlength, hstack⟩
  · split_ifs at h with hroom
    cases h
    exact ⟨rfl, by simp [Frame.values], hroom, hstack⟩
  · split_ifs at h with hroom
    cases h
    exact ⟨rfl, by simp [Frame.values], hroom, hstack⟩
  · cases h

theorem State.Took.step {st st' : State} {t : Token} {ts : List Token} (hst : st.Took ts)
    (h : st.step? t = some st') (ht : t.IsSimple) : st'.Took (ts ++ [t]) := by
  obtain ⟨rfl, hfits⟩ := hst
  unfold State.step? at h
  split at h
  · exact took_startValue? h ht hfits
  · cases h
    exact ⟨by simp [State.spelled, spelling], hfits.2⟩
  · exact took_startValue? h ht hfits
  · cases h
    exact ⟨by simp [State.spelled, spelling], hfits.2⟩
  · cases h
    exact ⟨by simp [State.spelled, spelledMembers], hfits⟩
  · cases h
    exact ⟨by simp [State.spelled], hfits⟩
  · cases h
    exact ⟨by simp [State.spelled, spelledStack], hfits⟩
  · cases h
    exact ⟨by simp [State.spelled, spelledStack, spelledItems_concat],
      List.forall_mem_cons.2 ⟨hfits.1, hfits.2.1⟩, hfits.2.2⟩
  · cases h
    rw [List.reverse_cons]
    exact ⟨by simp [State.spelled, spelledStack, spelling_array], fits_array hfits⟩
  · cases h
    exact ⟨by simp [State.spelled, spelledStack, spelledMembers_concat],
      List.forall_mem_cons.2 ⟨hfits.1, hfits.2.1⟩, hfits.2.2⟩
  · cases h
    rw [List.reverse_cons]
    exact ⟨by simp [State.spelled, spelledStack, spelling_object, spellingMembers],
      fits_object hfits⟩
  · cases h

theorem State.Took.run {st st' : State} {ts rest : List Token} (hst : st.Took ts)
    (h : st.run? rest = some st') (hrest : ∀ t ∈ rest, t.IsSimple) : st'.Took (ts ++ rest) := by
  induction rest generalizing st ts with
  | nil =>
    cases h
    rwa [List.append_nil]
  | cons t rest ih =>
    rw [State.run?, List.foldlM_cons] at h
    obtain ⟨next, hstep, h⟩ := Option.bind_eq_some_iff.1 h
    obtain ⟨ht, hrest⟩ := List.forall_mem_cons.1 hrest
    have hall := ih (hst.step hstep ht) h hrest
    rwa [List.append_assoc] at hall

/-! ### The machine on the tokens of a value -/

theorem run?_cons {st st' : State} {t : Token} (h : st.step? t = some st') (ts : List Token) :
    st.run? (t :: ts) = st'.run? ts := by
  rw [State.run?, List.foldlM_cons, h]
  rfl

/-- The first item of an array is read like any other value. -/
theorem run?_firstItem (stack : List Frame) (v : Json) (ts : List Token) :
    State.run? ⟨stack, .firstItem⟩ (spelling v ++ ts) =
      State.run? ⟨.items [] :: stack, .value⟩ (spelling v ++ ts) := by
  cases v with
  | array xs => cases xs <;> rfl
  | object ms => cases ms <;> rfl
  | _ => rfl

theorem run?_openBracket {stack : List Frame} (h : stack.length < maxOpen) (ts : List Token) :
    State.run? ⟨stack, .value⟩ (.openBracket :: ts) = State.run? ⟨stack, .firstItem⟩ ts := by
  have hstep : State.step? ⟨stack, .value⟩ .openBracket = some ⟨stack, .firstItem⟩ := if_pos h
  exact run?_cons hstep ts

theorem run?_openBrace {stack : List Frame} (h : stack.length < maxOpen) (ts : List Token) :
    State.run? ⟨stack, .value⟩ (.openBrace :: ts) = State.run? ⟨stack, .firstName⟩ ts := by
  have hstep : State.step? ⟨stack, .value⟩ .openBrace = some ⟨stack, .firstName⟩ := if_pos h
  exact run?_cons hstep ts

-- One theorem for each kind of list that `spelling` goes through. What is open and what the value
-- opens stay within the bound together.
mutual

theorem run?_value (stack : List Frame) (ts : List Token) :
    (v : Json) → stack.length + depth v ≤ maxOpen →
      State.run? ⟨stack, .value⟩ (spelling v ++ ts) = State.run? ⟨stack, .finished v⟩ ts
  | null, _ | bool _, _ | number _, _ | string _, _ => rfl
  | array [], h => run?_openBracket (by rw [depth] at h; omega) _
  | array (x :: xs), h => by
    rw [depth, depthItems] at h
    have hx : stack.length + 1 + depth x ≤ maxOpen := by omega
    have hxs : stack.length + 1 + depthItems xs ≤ maxOpen := by omega
    rw [spelling, List.cons_append, List.append_assoc, run?_openBracket (by omega),
      run?_firstItem, run?_value (.items [] :: stack) _ x hx, run?_items ts xs hxs]
    rfl
  | object [], h => run?_openBrace (by rw [depth] at h; omega) _
  | object ((k, v) :: ms), h => by
    rw [depth, depthMembers] at h
    have hv : stack.length + 1 + depth v ≤ maxOpen := by omega
    have hms : stack.length + 1 + depthMembers ms ≤ maxOpen := by omega
    rw [spelling, List.cons_append, List.cons_append, List.cons_append, List.append_assoc,
      run?_openBrace (by omega), run?_cons rfl, run?_cons rfl,
      run?_value (.members [] k :: stack) _ v hv, run?_members ts ms hms]
    rfl

theorem run?_items {stack : List Frame} {done : List Json} {v : Json} (ts : List Token) :
    (xs : List Json) → stack.length + 1 + depthItems xs ≤ maxOpen →
      State.run? ⟨.items done :: stack, .finished v⟩ (spellingItems xs ++ ts) =
        State.run? ⟨stack, .finished (array ((v :: done).reverse ++ xs))⟩ ts
  | [], _ => by
    rw [List.append_nil]
    rfl
  | x :: xs, h => by
    rw [depthItems] at h
    have hx : stack.length + 1 + depth x ≤ maxOpen := by omega
    have hxs : stack.length + 1 + depthItems xs ≤ maxOpen := by omega
    rw [spellingItems, List.cons_append, List.append_assoc, run?_cons rfl,
      run?_value (.items (v :: done) :: stack) _ x hx, run?_items ts xs hxs,
      List.reverse_cons (a := x), List.append_assoc]
    rfl

theorem run?_members {stack : List Frame} {done : List (String × Json)} {k : String} {v : Json}
    (ts : List Token) : (ms : List (String × Json)) →
      stack.length + 1 + depthMembers ms ≤ maxOpen →
      State.run? ⟨.members done k :: stack, .finished v⟩ (spellingMembers ms ++ ts) =
        State.run? ⟨stack, .finished (object (((k, v) :: done).reverse ++ ms))⟩ ts
  | [], _ => by
    rw [List.append_nil]
    rfl
  | (l, w) :: ms, h => by
    rw [depthMembers] at h
    have hw : stack.length + 1 + depth w ≤ maxOpen := by omega
    have hms : stack.length + 1 + depthMembers ms ≤ maxOpen := by omega
    rw [spellingMembers, List.cons_append, List.cons_append, List.cons_append, List.append_assoc,
      run?_cons rfl, run?_cons rfl, run?_cons rfl,
      run?_value (.members ((k, v) :: done) l :: stack) _ w hw, run?_members ts ms hms,
      List.reverse_cons (a := (l, w)), List.append_assoc]
    rfl

end

/-! ### No two tokens of a value run together -/

theorem spaced_mark (t : Token) (ht : t.IsMark) {ts : List Token} (h : Spaced ts) :
    Spaced (t :: ts) := List.isChain_cons.2 ⟨fun _ _ => .inl ht, h⟩

theorem spaced_before_mark {t : Token} {ts : List Token} (hts : ∀ t ∈ ts.head?, t.IsMark)
    (h : Spaced ts) : Spaced (t :: ts) := List.isChain_cons.2 ⟨fun t ht => .inr (hts t ht), h⟩

theorem mark_spellingItems (xs : List Json) (ts : List Token) :
    ∀ t ∈ (spellingItems xs ++ ts).head?, t.IsMark := by
  cases xs <;> simp [spellingItems, Token.IsMark]

theorem mark_spellingMembers (ms : List (String × Json)) (ts : List Token) :
    ∀ t ∈ (spellingMembers ms ++ ts).head?, t.IsMark := by
  cases ms <;> simp [spellingMembers, Token.IsMark]

theorem spaced_name (k : String) {ts : List Token} (h : Spaced ts) :
    Spaced (.text k :: .colon :: ts) := by
  refine spaced_before_mark ?_ (spaced_mark .colon trivial h)
  rintro t ⟨⟩
  trivial

mutual

theorem spaced_value {ts : List Token} (hmark : ∀ t ∈ ts.head?, t.IsMark) (hts : Spaced ts) :
    (v : Json) → Spaced (spelling v ++ ts)
  | null | bool _ | number _ | string _ => spaced_before_mark hmark hts
  | array [] => spaced_mark .openBracket trivial (spaced_mark .closeBracket trivial hts)
  | array (x :: xs) => by
    rw [spelling, List.cons_append, List.append_assoc]
    exact spaced_mark .openBracket trivial
      (spaced_value (mark_spellingItems xs ts) (spaced_items hts xs) x)
  | object [] => spaced_mark .openBrace trivial (spaced_mark .closeBrace trivial hts)
  | object ((k, v) :: ms) => by
    simp only [spelling, List.cons_append, List.append_assoc]
    exact spaced_mark .openBrace trivial (spaced_name k
      (spaced_value (mark_spellingMembers ms ts) (spaced_members hts ms) v))

theorem spaced_items {ts : List Token} (hts : Spaced ts) :
    (xs : List Json) → Spaced (spellingItems xs ++ ts)
  | [] => spaced_mark .closeBracket trivial hts
  | x :: xs => by
    rw [spellingItems, List.cons_append, List.append_assoc]
    exact spaced_mark .comma trivial
      (spaced_value (mark_spellingItems xs ts) (spaced_items hts xs) x)

theorem spaced_members {ts : List Token} (hts : Spaced ts) :
    (ms : List (String × Json)) → Spaced (spellingMembers ms ++ ts)
  | [] => spaced_mark .closeBrace trivial hts
  | (k, v) :: ms => by
    simp only [spellingMembers, List.cons_append, List.append_assoc]
    exact spaced_mark .comma trivial (spaced_name k
      (spaced_value (mark_spellingMembers ms ts) (spaced_members hts ms) v))

end

theorem spaced_spelling (v : Json) : Spaced (spelling v) := by
  have h := spaced_value (by simp) .nil v
  rwa [List.append_nil] at h

/-! ### Reading -/

theorem Laid.isSimple {ts : List Token} {s : List Char} (h : Laid ts s) :
    ∀ t ∈ ts, t.IsSimple := by
  induction h with
  | nil => simp
  | cons _ hw _ ih => exact List.forall_mem_cons.2 ⟨hw.isSimple, ih⟩

/-- A text is read as a value exactly if it is a text of that value. -/
theorem read?_eq_some_iff {s : List Char} {v : Json} : read? s = some v ↔ IsTextOf s v := by
  constructor
  · intro h
    obtain ⟨ts, htokens, h⟩ := Option.bind_eq_some_iff.1 h
    obtain ⟨⟨stack, mode⟩, hrun, h⟩ := Option.bind_eq_some_iff.1 h
    have hlaid := laid_of_tokens? htokens
    have hstart : State.Took {} [] := ⟨rfl, trivial⟩
    have htook := hstart.run hrun hlaid.isSimple
    split at h
    · rename_i hlast
      cases hlast
      cases h
      obtain ⟨rfl, hdepth, -⟩ := htook
      exact ⟨by simpa using hdepth, hlaid⟩
    · cases h
  · rintro ⟨hdepth, hlaid⟩
    have hrun : State.run? {} (spelling v) = some ⟨[], .finished v⟩ := by
      have h := run?_value [] [] v (by simpa using hdepth)
      rwa [List.append_nil] at h
    rw [read?, tokens?_of_laid hlaid (spaced_spelling v)]
    simp only [Option.bind_eq_bind, Option.bind_some, hrun]

end Mockup.Json
