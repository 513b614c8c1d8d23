import Mockup.Number.Decimal
import Mockup.Text.Cut

/-! Internet addresses and sockets, and how they are written. A run of zero groups in an address of
the sixth version may be left out once, and is left out where it is longest. -/

namespace Mockup.Network

structure IPv4 where
  octets : Vector UInt8 4
  deriving DecidableEq, Repr

structure IPv6 where
  groups : Vector UInt16 8
  deriving DecidableEq, Repr

/-- A host and a port. The scope of an address of the sixth version is zero when none is stated. -/
inductive SocketAddress where
  | v4 (host : IPv4) (port : UInt16)
  | v6 (host : IPv6) (scope : UInt32) (port : UInt16)
  deriving DecidableEq, Repr

def vector? {α : Type} (n : Nat) (xs : List α) : Option (Vector α n) :=
  if h : xs.length = n then some ⟨xs.toArray, by simp [h]⟩ else none

/-- The pieces of a text between the places of a separator. -/
def pieces (sep : Char) (s : List Char) : List (List Char) := s.splitOn sep

/-! ### Reading -/

/-- Decimal digits of a number below `bound`. -/
def number? (bound : Nat) (s : List Char) : Option Nat :=
  if s.isEmpty || !s.all Number.isDigit then none
  else if Number.ofDigits s < bound then some (Number.ofDigits s) else none

/-- No octet starts with a zero that it does not need. -/
def octet? (s : List Char) : Option UInt8 :=
  if 3 < s.length || (1 < s.length && s.head? == some '0') then none
  else (number? 256 s).map UInt8.ofNat

def IPv4.ofText? (s : List Char) : Option IPv4 := do
  let octets ← (pieces '.' s).mapM octet?
  return ⟨← vector? 4 octets⟩

def group? (s : List Char) : Option UInt16 :=
  if s.isEmpty || 4 < s.length then none
  else (Number.ofDigitsIn? 16 s).map UInt16.ofNat

/-- Two groups written as four octets. -/
def IPv4.groups (a : IPv4) : List UInt16 :=
  let o (i : Fin 4) : Nat := (a.octets[i]).toNat
  [UInt16.ofNat (o 0 * 256 + o 1), UInt16.ofNat (o 2 * 256 + o 3)]

/-- Groups between colons; `embedded` allows the last two to be four octets. -/
def groups? (embedded : Bool) : List (List Char) → Option (List UInt16)
  | [] => some []
  | [s] =>
    match group? s with
    | some g => some [g]
    | none => if embedded then (IPv4.ofText? s).map IPv4.groups else none
  | s :: rest => do
    let g ← group? s
    let gs ← groups? embedded rest
    return g :: gs

/-- Either eight groups, or at most seven with a gap between them. -/
def IPv6.ofText? (s : List Char) : Option IPv6 := do
  let side (embedded : Bool) (s : List Char) : Option (List UInt16) :=
    if s.isEmpty then some [] else groups? embedded (pieces ':' s)
  match Text.cut [':', ':'] s with
  | none => return ⟨← vector? 8 (← groups? true (pieces ':' s))⟩
  | some (before, after) =>
    let head ← side false before
    let tail ← side true after
    let missing := 8 - (head.length + tail.length)
    if missing = 0 then none
    return ⟨← vector? 8 (head ++ List.replicate missing 0 ++ tail)⟩

def port? (s : List Char) : Option UInt16 := (number? 65536 s).map UInt16.ofNat

def SocketAddress.ofText? (s : List Char) : Option SocketAddress :=
  match s with
  | '[' :: s => do
    let (inside, port) ← Text.cut [']', ':'] s
    let (host, scope) ← match Text.cut ['%'] inside with
      | none => some (inside, 0)
      | some (host, scope) => (number? (Number.twoTo 32) scope).map (host, ·)
    return .v6 (← IPv6.ofText? host) (UInt32.ofNat scope) (← port? port)
  | s => do
    let (host, port) ← Text.cut [':'] s
    return .v4 (← IPv4.ofText? host) (← port? port)

/-! ### Writing -/

def IPv4.text (a : IPv4) : List Char :=
  ['.'].intercalate (a.octets.toList.map fun o => Number.digits o.toNat)

namespace IPv6

def groupsText (gs : List UInt16) : List Char :=
  [':'].intercalate (gs.map fun g => Nat.toDigits 16 g.toNat)

/-- The start and the length of the first of the longest runs of zero groups. -/
def longestGap (gs : List UInt16) : Nat × Nat :=
  (List.range gs.length).foldl
    (fun best i =>
      let n := ((gs.drop i).takeWhile (· == 0)).length
      if best.2 < n then (i, n) else best) (0, 0)

/-- A run of at least two zero groups is left out. -/
def text (a : IPv6) : List Char :=
  let gs := a.groups.toList
  let (start, n) := longestGap gs
  if n < 2 then groupsText gs
  else groupsText (gs.take start) ++ [':', ':'] ++ groupsText (gs.drop (start + n))

/-- The address of the fourth version that an address stands for. -/
def mapped? (a : IPv6) : Option IPv4 :=
  match a.groups.toList with
  | [0, 0, 0, 0, 0, 0xffff, g, h] =>
    let octet (n : Nat) := UInt8.ofNat n
    some ⟨#v[octet (g.toNat / 256), octet g.toNat, octet (h.toNat / 256), octet h.toNat]⟩
  | _ => none

end IPv6

def SocketAddress.text : SocketAddress → List Char
  | v4 host port => host.text ++ ':' :: Number.digits port.toNat
  | v6 host scope port =>
    let address := match host.mapped? with
      | some a => "::ffff:".toList ++ a.text
      | none => host.text
    '[' :: (address ++ (if scope = 0 then [] else '%' :: Number.digits scope.toNat) ++
      [']', ':'] ++ Number.digits port.toNat)

end Mockup.Network
