import Mockup.Network.Address

/-! Uniform resource locators. The parts are kept in the form in which they are written. -/

namespace Mockup.Network

inductive Host where
  | domain (name : List Char)
  | v4 (address : IPv4)
  | v6 (address : IPv6)
  deriving DecidableEq, Repr

/-- Who is asked for a resource. A host may be the empty name; an empty user name or password is
none. -/
structure Authority where
  username : List Char := []
  password : List Char := []
  host : Host
  port : Option UInt16 := none
  deriving DecidableEq, Repr

/-- Segments, each behind a slash, or any text. -/
inductive UrlPath where
  | segments (segments : List (List Char))
  | plain (text : List Char)
  deriving DecidableEq, Repr

structure Url where
  scheme : List Char
  authority : Option Authority
  path : UrlPath
  query : Option (List Char) := none
  fragment : Option (List Char) := none
  deriving DecidableEq, Repr

inductive UrlError where
  | emptyHost | badDomain | badDomainCharacter | badPort | badIPv4 | badIPv6 | relative
  deriving DecidableEq, Repr

def UrlError.message : UrlError → String
  | emptyHost => "empty host"
  | badDomain => "invalid international domain name"
  | badDomainCharacter => "invalid domain character"
  | badPort => "invalid port number"
  | badIPv4 => "invalid IPv4 address"
  | badIPv6 => "invalid IPv6 address"
  | relative => "relative URL without a base"

def Host.text : Host → List Char
  | domain name => name
  | v4 a => a.text
  | v6 a => '[' :: (a.text ++ [']'])

namespace Authority

def isAnonymous (a : Authority) : Bool := a.username.isEmpty && a.password.isEmpty

def text (a : Authority) : List Char :=
  a.username ++ (if a.password.isEmpty then [] else ':' :: a.password) ++
    (if a.isAnonymous then [] else ['@']) ++ a.host.text ++
    match a.port with
    | some p => ':' :: Number.digits p.toNat
    | none => []

end Authority

namespace UrlPath

def text : UrlPath → List Char
  | segments ss => ss.flatMap ('/' :: ·)
  | plain s => s

/-- Written at once after the scheme, the path would read as an authority. -/
def looksLikeAuthority : UrlPath → Bool
  | segments ([] :: _ :: _) => true
  | _ => false

end UrlPath

namespace Url

/-- The schemes with a host and a default port. -/
def defaultPort? (scheme : List Char) : Option UInt16 :=
  match String.ofList scheme with
  | "http" | "ws" => some 80
  | "https" | "wss" => some 443
  | "ftp" => some 21
  | _ => none

def isFileScheme (scheme : List Char) : Bool := scheme == "file".toList

def isSpecialScheme (scheme : List Char) : Bool :=
  isFileScheme scheme || (defaultPort? scheme).isSome

def authorityText (u : Url) : List Char :=
  match u.authority with
  | some a => '/' :: '/' :: a.text
  | none => if u.path.looksLikeAuthority then ['/', '.'] else []

def text (u : Url) : List Char :=
  u.scheme ++ ':' :: (u.authorityText ++ u.path.text ++
    (match u.query with | some q => '?' :: q | none => []) ++
    (match u.fragment with | some f => '#' :: f | none => []))

end Url

end Mockup.Network
