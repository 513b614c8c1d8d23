import Mathlib.Data.List.Infix
import Mockup.CommandLine
import Mockup.Proofs.Text.Words

/-! What the arguments of a command line say of a switch. An argument that names a switch carries
its value or is followed by it. -/

namespace Mockup.CommandLine

/-- An argument names a switch, with a value or alone. -/
inductive Calls (s : Switch) : List Char → Option String → Prop where
  | long : Calls s ('-' :: '-' :: s.long.toList) none
  | longValue (v : List Char) :
    Calls s ('-' :: '-' :: (s.long.toList ++ '=' :: v)) (some (.ofList v))
  | short {c : Char} (h : s.short? = some c) : Calls s ['-', c] none
  | shortValue {c : Char} (h : s.short? = some c) (v : List Char) :
    Calls s ('-' :: c :: '=' :: v) (some (.ofList v))
  | shortJoined {c a : Char} (h : s.short? = some c) (ha : a ≠ '=') (v : List Char) :
    Calls s ('-' :: c :: a :: v) (some (.ofList (a :: v)))

/-- The command line gives a switch a value, in one argument or in two. -/
inductive Gives (arguments : List String) (s : Switch) (value : String) : Prop where
  | joined {a : String} (ha : a ∈ arguments) (h : Calls s a.toList (some value))
  | apart {a : String} (ha : [a, value] <:+: arguments) (h : Calls s a.toList none)

/-- The value behind a name, after an equals sign. -/
def valueOf : List Char → Option String
  | _ :: v => some (.ofList v)
  | [] => none

/-- The value behind a letter. -/
def joinedValue : List Char → Option String
  | [] => none
  | '=' :: v => some (.ofList v)
  | v => some (.ofList v)

/-- The switch that an argument names, and its value. -/
def named? : List Char → Option (Switch × Option String)
  | '-' :: '-' :: s =>
    (Switch.ofLong? (.ofList (s.takeWhile (· ≠ '=')))).map (·, valueOf (s.dropWhile (· ≠ '=')))
  | '-' :: c :: s => (Switch.ofShort? c).map (·, joinedValue s)
  | _ => none

theorem ofLong?_long (s : Switch) : Switch.ofLong? s.long = some s := by
  cases s <;> decide

theorem long_of_ofLong? {name : String} {s : Switch} (h : Switch.ofLong? name = some s) :
    s.long = name := by
  simpa using List.find?_some h

theorem short?_of_ofShort? {c : Char} {s : Switch} (h : Switch.ofShort? c = some s) :
    s.short? = some c := by
  simpa using List.find?_some h

theorem named?_long {s : Switch} {r : List Char} (hr : ∀ c ∈ r.head?, c = '=') :
    named? ('-' :: '-' :: (s.long.toList ++ r)) = some (s, valueOf r) := by
  have hlong : s.long.toList.all (· ≠ '=') = true := by
    cases s <;> decide
  have hlong : ∀ c ∈ s.long.toList, decide (c ≠ '=') = true := List.all_eq_true.1 hlong
  have hend : ∀ c ∈ r.head?, decide (c ≠ '=') = false := fun c hc => by simp [hr c hc]
  rw [named?, Text.takeWhile_append_of_head hlong hend, Text.dropWhile_append_of_head hlong hend,
    String.ofList_toList, ofLong?_long]
  rfl

theorem named?_short {s : Switch} {c : Char} (h : s.short? = some c) (r : List Char) :
    named? ('-' :: c :: r) = some (s, joinedValue r) := by
  cases s <;> cases h <;> rfl

theorem calls_valueOf {s : Switch} {r : List Char} (h : s.long.toList = r.takeWhile (· ≠ '=')) :
    Calls s ('-' :: '-' :: r) (valueOf (r.dropWhile (· ≠ '='))) := by
  have hsplit : s.long.toList ++ r.dropWhile (· ≠ '=') = r := by
    rw [h, List.takeWhile_append_dropWhile]
  cases hrest : r.dropWhile (· ≠ '=') with
  | nil =>
    rw [hrest, List.append_nil] at hsplit
    rw [← hsplit]
    exact .long
  | cons d v =>
    have hd := List.head?_dropWhile_not (· ≠ '=') r
    rw [hrest] at hd hsplit
    have hd : d = '=' := by simpa using hd
    rw [← hsplit, hd]
    exact .longValue v

theorem calls_joinedValue {s : Switch} {c : Char} (hs : s.short? = some c) (r : List Char) :
    Calls s ('-' :: c :: r) (joinedValue r) := by
  unfold joinedValue
  split
  · exact .short hs
  · exact .shortValue hs _
  · rename_i hne
    cases r with
    | nil => exact absurd rfl ‹_›
    | cons a r => exact .shortJoined hs (fun ha => hne r (by rw [ha])) r

theorem calls_iff {s : Switch} {argument : List Char} {value : Option String} :
    Calls s argument value ↔ named? argument = some (s, value) := by
  constructor
  · intro h
    cases h with
    | long => simpa [valueOf] using named?_long (s := s) (r := []) nofun
    | longValue v => exact named?_long (by rintro _ ⟨⟩; rfl)
    | short h => exact named?_short h []
    | shortValue h v => exact named?_short h ('=' :: v)
    | shortJoined h ha v =>
      rw [named?_short h]
      simp [joinedValue, ha]
  · intro h
    unfold named? at h
    split at h
    · obtain ⟨s', hs', heq⟩ := Option.map_eq_some_iff.1 h
      cases heq
      have hname := congrArg String.toList (long_of_ofLong? hs')
      rw [String.toList_ofList] at hname
      exact calls_valueOf hname
    · obtain ⟨s', hs', heq⟩ := Option.map_eq_some_iff.1 h
      cases heq
      exact calls_joinedValue (short?_of_ofShort? hs') _
    · cases h

/-- An argument names one switch with one value. -/
theorem Calls.unique {s s' : Switch} {argument : List Char} {v v' : Option String}
    (h : Calls s argument v) (h' : Calls s' argument v') : s = s' ∧ v = v' := by
  rw [calls_iff] at h h'
  cases h.symm.trans h'
  exact ⟨rfl, rfl⟩

/-- The last argument is a switch that waits for its value. -/
def Waits (arguments : List String) (s : Switch) : Prop :=
  ∃ a, arguments.getLast? = some a ∧ Calls s a.toList none

theorem waits_concat {arguments : List String} {argument : String} {s : Switch} :
    Waits (arguments ++ [argument]) s ↔ Calls s argument.toList none := by
  unfold Waits
  simp

theorem gives_concat {arguments : List String} {argument value : String} {s : Switch} :
    Gives (arguments ++ [argument]) s value ↔
      Gives arguments s value ∨ Calls s argument.toList (some value) ∨
        value = argument ∧ Waits arguments s := by
  constructor
  · rintro (⟨ha, h⟩ | ⟨ha, h⟩)
    · obtain ha | ha := List.mem_append.1 ha
      · exact .inl (.joined ha h)
      · rw [List.mem_singleton] at ha
        exact .inr (.inl (ha ▸ h))
    · obtain ha | ha := List.infix_concat_iff.1 ha
      · obtain hnil | ⟨t, ht, hsuffix⟩ := List.suffix_concat_iff.1 ha
        · cases hnil
        · have ht : [_] ++ [value] = t ++ [argument] := ht
          obtain ⟨rfl, hvalue⟩ := List.append_inj' ht rfl
          cases hvalue
          exact .inr (.inr ⟨rfl, _, List.singleton_suffix_iff_getLast?_eq_some.1 hsuffix, h⟩)
      · exact .inl (.apart ha h)
  · rintro (h | h | ⟨rfl, a, ha, h⟩)
    · cases h with
      | joined ha h => exact .joined (List.mem_append_left _ ha) h
      | apart ha h => exact .apart (ha.trans (List.prefix_append _ _).isInfix) h
    · exact .joined (List.mem_append_right _ List.mem_cons_self) h
    · have hsuffix := List.singleton_suffix_iff_getLast?_eq_some.2 ha
      exact .apart (List.suffix_concat_iff.2 (.inr ⟨[a], rfl, hsuffix⟩)).isInfix h

end Mockup.CommandLine
