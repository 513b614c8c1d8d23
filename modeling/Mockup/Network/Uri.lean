import Mockup.Network.Percent
import Mockup.Network.Url

/-! What requests are addressed to. A URL that is asked for is read once more as a URI, without the
user name and the password, which are told elsewhere; and a URI may not be as long as a URL, nor may
its host have all of the characters. -/

namespace Mockup.Network

/-- User name and password can be told to a server: the name is text, and without a name the
password is. -/
def Authority.isTellable (a : Authority) : Bool :=
  match Text.Utf8.decode? (Percent.decode a.username) with
  | some name => name ≠ "" || (Text.Utf8.decode? (Percent.decode a.password)).isSome
  | none => false

namespace Url

/-- The URL without a user name and a password. Those that cannot be told are left in it. -/
def anonymous (u : Url) : Url :=
  { u with
    authority := u.authority.map fun a =>
      if a.isTellable then { a with username := [], password := [] } else a }

/-- The most characters of a URI. All of them are ASCII. -/
def maxUri : Nat := 65534

/-- What may stand in the host of a URL, and not in that of a URI. -/
def isUnfit (c : Char) : Bool := ['"', '\x60', '\x7b', '\x7d'].contains c

/-- The URL can be asked for: it has a host, and it is a URI too. -/
def isUri (u : Url) : Bool :=
  u.authority.any (·.host.text.all (!isUnfit ·)) && u.text.length ≤ maxUri

end Url

end Mockup.Network
