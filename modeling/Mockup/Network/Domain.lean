import Mockup.Network.Address
import Mockup.Network.Domain.Context
import Mockup.Network.Domain.Direction
import Mockup.Network.Domain.Mapping
import Mockup.Network.Domain.Punycode

/-! Names of hosts, in the form in which they are looked up: small letters of ASCII. A label beyond
ASCII is looked up in a written form behind a sign; a label that has the sign must be such a form.
-/

namespace Mockup.Network.Domain

open Text

/-- The characters that no name may have. -/
def isForbidden (c : Char) : Bool :=
  c.toNat ≤ 0x20 || c.toNat = 0x7F ||
    ['%', '#', '/', ':', '<', '>', '?', '@', '[', '\\', ']', '^', '|'].contains c

def isAscii (s : List Char) : Bool := s.all (·.toNat < 128)

/-- The sign of a written label. -/
def sign : List Char := "xn--".toList

/-- Each character stands for itself, and all are where they may stand. -/
def isSound (label : List Char) : Bool :=
  label.all (fun c => standsFor? c = some [c]) && Composition.compose label == label &&
    !startsWithMark label && joinersStand [] label && !sign.isPrefixOf label

/-- The label that a written one stands for. -/
def unwritten? (label : List Char) : Option (List Char) := do
  let u ← Punycode.decode? (← past? sign label)
  if isAscii u || !isSound u then none else some u

/-- The form in which a label is looked up. -/
def written (label : List Char) : List Char :=
  if isAscii label then label else sign ++ Punycode.encode label

/-- A label as it is read. One beyond ASCII must be what its written form stands for. -/
def label? (label : List Char) : Option (List Char) :=
  if sign.isPrefixOf label then unwritten? label
  else if isAscii label then some label
  else if unwritten? (written label) = some label then some label
  else none

/-- The name with what its characters stand for. -/
def folded? (s : List Char) : Option (List Char) :=
  if isAscii s then some (s.map Char.toLower)
  else (s.mapM standsFor?).map fun cs => Composition.compose cs.flatten

/-- The looked-up form of a name, if it has one. -/
def toAscii? (s : List Char) : Option (List Char) := do
  let labels ← (pieces '.' (← folded? s)).mapM label?
  if !labels.all isAscii && !Direction.allows labels then none
  else
    let name := ['.'].intercalate (labels.map written)
    if name.any isForbidden then none else some name

end Mockup.Network.Domain
