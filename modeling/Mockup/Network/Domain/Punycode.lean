/-! Labels beyond ASCII, written in ASCII. The characters of ASCII come first and then, behind a
hyphen, the others by rising code point: for each the number of places that are passed over, where
all code points in between have all places, in digits that weigh less the more of them are expected.
-/

namespace Mockup.Network.Domain.Punycode

/-- The number of digits. -/
def base : Nat := 36

/-- The least and the greatest threshold. -/
def least : Nat := 1
def greatest : Nat := 26

/-- A digit below the threshold of its place is the last of its number. -/
def threshold (bias place : Nat) : Nat := min greatest (max least (place - bias))

theorem threshold_pos (bias place : Nat) : 0 < threshold bias place := by
  unfold threshold least greatest
  omega

def firstBias : Nat := 72

/-- The code point from which the count starts. -/
def firstCode : Nat := 128

/-- Brings a number into the range of the bias; each step weighs a place. -/
def shrink (delta place : Nat) : Nat :=
  if (base - least) * greatest / 2 < delta then shrink (delta / (base - least)) (place + base)
  else place + (base - least + 1) * delta / (delta + 38)
termination_by delta
decreasing_by
  rename_i h
  exact Nat.div_lt_self (Nat.lt_of_le_of_lt (Nat.zero_le _) h) (by decide)

/-- The bias after a number, when `count` characters are there. -/
def adapt (delta count : Nat) (isFirst : Bool) : Nat :=
  let delta := if isFirst then delta / 700 else delta / 2
  shrink (delta + delta / count) 0

/-! ### Writing -/

def digitChar (d : Nat) : Char :=
  if d < 26 then Char.ofNat (97 + d) else Char.ofNat (22 + d)

/-- The digits of a number, the last first weighed at `place`. -/
def digits (bias place n : Nat) : List Char :=
  let t := threshold bias place
  if n < t then [digitChar n]
  else digitChar (t + (n - t) % (base - t)) :: digits bias (place + base) ((n - t) / (base - t))
termination_by n
decreasing_by
  have ht := threshold_pos bias place
  have := Nat.div_le_self (n - threshold bias place) (base - threshold bias place)
  omega

/-- What has been written, and the places passed over since the last number. -/
structure Writer where
  out : List Char
  count : Nat
  delta : Nat := 0
  bias : Nat := firstBias

/-- Passes over a character of the label, or writes a number if it is the one that is due. -/
def Writer.pass (basic due : Nat) (w : Writer) (c : Char) : Writer :=
  if c.toNat < due then { w with delta := w.delta + 1 }
  else if c.toNat = due then
    { out := w.out ++ digits w.bias base w.delta
      count := w.count + 1
      delta := 0
      bias := adapt w.delta (w.count + 1) (w.count = basic) }
  else w

/-- Writes the characters of each code point that is due, from `code` on. -/
def Writer.writeAll (label : List Char) (basic : Nat) : (code : Nat) → Writer → List Nat → Writer
  | _, w, [] => w
  | code, w, due :: dues =>
    let w := { w with delta := w.delta + (due - code) * (w.count + 1) }
    let w := label.foldl (Writer.pass basic due) w
    writeAll label basic (due + 1) { w with delta := w.delta + 1 } dues

/-- The code points beyond ASCII in rising order, each once. -/
def codes (label : List Char) : List Nat :=
  (((label.map Char.toNat).filter (firstCode ≤ ·)).mergeSort (· ≤ ·)).eraseReps

def encode (label : List Char) : List Char :=
  let ascii := label.filter (·.toNat < firstCode)
  let out := if ascii.isEmpty then [] else ascii ++ ['-']
  (Writer.writeAll label ascii.length firstCode { out := out, count := ascii.length }
    (codes label)).out

/-! ### Reading -/

def digitValue? (c : Char) : Option Nat :=
  if 'a' ≤ c && c ≤ 'z' then some (c.toNat - 97)
  else if '0' ≤ c && c ≤ '9' then some (c.toNat - 22)
  else none

/-- What has been read: the characters so far, the last code point, the place in the label, and of
the number that is being read its value, its weight and the place of the next digit. -/
structure Reader where
  out : List Char
  code : Nat := firstCode
  index : Nat := 0
  bias : Nat := firstBias
  number : Nat := 0
  weight : Nat := 1
  place : Nat := base

/-- A character of a code point, unless there is none. -/
def char? (n : Nat) : Option Char := if n.isValidChar then some (Char.ofNat n) else none

/-- The end of a number: the place passes around the label, and each time the code point is one
more. -/
def Reader.insert? (r : Reader) : Option Reader := do
  let count := r.out.length + 1
  let total := r.index + r.number
  let code := r.code + total / count
  let index := total % count
  let c ← char? code
  return {
    out := r.out.take index ++ c :: r.out.drop index
    code := code
    index := index + 1
    bias := adapt r.number count (r.index = 0) }

def Reader.step? (r : Reader) (c : Char) : Option Reader := do
  let d ← digitValue? c
  let t := threshold r.bias r.place
  let r := { r with number := r.number + d * r.weight }
  if d < t then r.insert?
  else return { r with weight := r.weight * (base - t), place := r.place + base }

/-- The label, unless the last number does not end. -/
def Reader.readAll? (r : Reader) : List Char → Option (List Char)
  | [] => if r.place = base then some r.out else none
  | c :: s => (r.step? c).bind fun r => r.readAll? s

/-- What stands before the last hyphen, and what after it. A hyphen does not stand first. -/
def splitBasic (s : List Char) : List Char × List Char :=
  match s.reverse.dropWhile (· ≠ '-') with
  | _ :: before =>
    if before.isEmpty then ([], s)
    else (before.reverse, (s.reverse.takeWhile (· ≠ '-')).reverse)
  | [] => ([], s)

def decode? (s : List Char) : Option (List Char) :=
  let (ascii, numbers) := splitBasic s
  Reader.readAll? { out := ascii } numbers

end Mockup.Network.Domain.Punycode
