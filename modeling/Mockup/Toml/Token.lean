import Mockup.Document
import Mockup.Text.Utf8

/-! The tokens of a TOML text: marks, words, quoted texts, blanks and line ends, each with the piece
of the text that it covers. Comments count as blanks. -/

namespace Mockup.Toml

inductive Lexeme where
  | mark (c : Char)
  | word (cs : List Char)
  | text (s : List Char) (multiline : Bool)
  | blank (cs : List Char)
  | lineEnd
  deriving DecidableEq, Repr

structure Token where
  lexeme : Lexeme
  extent : Extent
  deriving Repr

/-! ### Characters -/

def isBlank (c : Char) : Bool := c = ' ' || c = '\t'

def isControl (c : Char) : Bool := (c.toNat < 0x20 && c ≠ '\t') || c.toNat = 0x7F

def isMark (c : Char) : Bool := ['.', '=', ',', '[', ']', '\x7b', '\x7d'].contains c

def endsWord (c : Char) : Bool := isMark c || isBlank c || c = '#' || c = '\n' || c = '\r'

/-- A line end starts here. A carriage return alone is none. -/
def startsLineEnd : List Char → Bool
  | '\n' :: _ => true
  | '\r' :: '\n' :: _ => true
  | _ => false

/-! ### Quoted texts -/

/-- The character of a one-letter escape. -/
def simpleEscape? (c : Char) : Option Char :=
  if c = '"' || c = '\\' then some c
  else if c = 'b' then some (Char.ofNat 8)
  else if c = 't' then some '\t'
  else if c = 'n' then some '\n'
  else if c = 'f' then some (Char.ofNat 12)
  else if c = 'r' then some '\r'
  else if c = 'e' then some (Char.ofNat 27)
  else none

/-- The number of digits of an escape by number. -/
def escapeDigits? (c : Char) : Option Nat :=
  if c = 'x' then some 2 else if c = 'u' then some 4 else if c = 'U' then some 8 else none

def charOfNumber? (n : Nat) : Option Char := if n.isValidChar then some (Char.ofNat n) else none

/-- Where the reader stands with an escape: outside any, behind the backslash, among the digits of a
number, before a line end that is escaped, or behind it, where blanks do not count. -/
inductive Escape where
  | outside
  | begun
  | digits (left value : Nat)
  | beforeLineEnd
  | afterLineEnd
  deriving DecidableEq, Repr

/-- The text after a quote in a multi-line text: the quotes that belong to it and what follows the
three that close it, if three do. -/
def close? (q : Char) : List Char → Option (List Char × List Char)
  | a :: b :: c :: d :: s =>
    if a = q && b = q then
      if c = q && d = q then some ([q, q], s)
      else if c = q then some ([q], d :: s)
      else some ([], c :: d :: s)
    else none
  | [a, b, c] => if a = q && b = q then some (if c = q then ([q], []) else ([], [c])) else none
  | [a, b] => if a = q && b = q then some ([], []) else none
  | _ => none

/-- What comes before a rest. -/
def before (c : Char) : Option (List Char × List Char) → Option (List Char × List Char) :=
  Option.map fun (cs, r) => (c :: cs, r)

/-- The text up to the closing quotes, and what follows them. -/
def readBasic (multi : Bool) (e : Escape) : List Char → Option (List Char × List Char)
  | [] => none
  | c :: s =>
    match e with
    | .begun =>
      match simpleEscape? c, escapeDigits? c with
      | some d, _ => before d (readBasic multi .outside s)
      | none, some n => readBasic multi (.digits n 0) s
      | none, none =>
        if multi && isBlank c then readBasic multi .beforeLineEnd s
        else if multi && startsLineEnd (c :: s) then readBasic multi .afterLineEnd s
        else none
    | .digits left value => do
      let d ← Number.digitValue? c
      let value := 16 * value + d
      if left = 1 then before (← charOfNumber? value) (readBasic multi .outside s)
      else readBasic multi (.digits (left - 1) value) s
    | .beforeLineEnd =>
      if isBlank c then readBasic multi .beforeLineEnd s
      else if startsLineEnd (c :: s) then readBasic multi .afterLineEnd s
      else none
    | _ =>
      if e = .afterLineEnd && (isBlank c || startsLineEnd (c :: s)) then
        readBasic multi .afterLineEnd s
      else if c = '"' then
        if !multi then some ([], s)
        else match close? '"' s with
          | some r => some r
          | none => before c (readBasic multi .outside s)
      else if c = '\\' then readBasic multi .begun s
      else if multi && startsLineEnd (c :: s) then before c (readBasic multi .outside s)
      else if isControl c then none
      else before c (readBasic multi .outside s)

/-- The text up to the closing apostrophes, and what follows them. -/
def readLiteral (multi : Bool) : List Char → Option (List Char × List Char)
  | [] => none
  | c :: s =>
    if c = '\'' then
      if !multi then some ([], s)
      else match close? '\'' s with
        | some r => some r
        | none => before c (readLiteral multi s)
    else if multi && startsLineEnd (c :: s) then before c (readLiteral multi s)
    else if isControl c then none
    else before c (readLiteral multi s)

/-- A line end right behind the opening quotes does not count. -/
def dropLineEnd : List Char → List Char
  | '\n' :: s => s
  | '\r' :: '\n' :: s => s
  | s => s

/-! ### Tokens -/

/-- The lexeme at the start of a text, and what follows it. -/
def Lexeme.read? : List Char → Option (Lexeme × List Char)
  | [] => none
  | '\n' :: s => some (.lineEnd, s)
  | '\r' :: s => match s with
    | '\n' :: s => some (.lineEnd, s)
    | _ => none
  | '"' :: '"' :: '"' :: s =>
    (readBasic true .outside (dropLineEnd s)).map fun (t, r) => (.text t true, r)
  | '"' :: s => (readBasic false .outside s).map fun (t, r) => (.text t false, r)
  | '\'' :: '\'' :: '\'' :: s => (readLiteral true (dropLineEnd s)).map fun (t, r) => (.text t true, r)
  | '\'' :: s => (readLiteral false s).map fun (t, r) => (.text t false, r)
  | '#' :: s =>
    let comment := s.takeWhile fun c => c ≠ '\n' && c ≠ '\r'
    if comment.any isControl then none else some (.blank ('#' :: comment), s.drop comment.length)
  | c :: s =>
    if isMark c then some (.mark c, s)
    else if isBlank c then
      let blanks := s.takeWhile isBlank
      some (.blank (c :: blanks), s.drop blanks.length)
    else
      let word := s.takeWhile (!endsWord ·)
      some (.word (c :: word), s.drop word.length)

/-- The tokens of a text that starts at a byte. A token takes at least one character, so `fuel` is
never short. -/
def tokensFrom : (fuel start : Nat) → List Char → Option (List Token)
  | _, _, [] => some []
  | 0, _, _ => none
  | fuel + 1, start, s => do
    let (l, r) ← Lexeme.read? s
    let stop := start + (Text.Utf8.size s - Text.Utf8.size r)
    let ts ← tokensFrom fuel stop r
    return ⟨l, ⟨start, stop⟩⟩ :: ts

/-- A byte order mark in front does not count. -/
def tokens? (s : List Char) : Option (List Token) :=
  let mark := Char.ofNat 0xFEFF
  if s.head? = some mark then tokensFrom s.length mark.utf8Size (s.drop 1)
  else tokensFrom s.length 0 s

end Mockup.Toml
