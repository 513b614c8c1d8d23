import Mockup.Network.Domain
import Mockup.Network.Percent
import Mockup.Network.Url

/-! Reading URLs. Blanks around the text and line breaks in it do not count. After the scheme the
text is cut at the first number sign and before it at the first question mark; what is left is an
authority and a path, where a backslash is a slash if the scheme is one that always has a host. -/

namespace Mockup.Network

/-- What stands before the first character of a kind, and what from it on. -/
def spanTo (p : Char → Bool) (s : List Char) : List Char × List Char :=
  (s.takeWhile (!p ·), s.dropWhile (!p ·))

/-! ### Hosts -/

/-- A number in an address of the fourth version: after a zero it is octal, after 0x hexadecimal. -/
def ipv4Number? (s : List Char) : Option Nat :=
  match s with
  | [] => none
  | '0' :: 'x' :: s | '0' :: 'X' :: s => Number.ofDigitsIn? 16 s
  | ['0'] => some 0
  | '0' :: s => Number.ofDigitsIn? 8 s
  | s => Number.ofDigitsIn? 10 s

/-- The parts of a name between dots; a dot at the end counts for nothing. -/
def dottedParts (s : List Char) : List (List Char) :=
  let parts := pieces '.' s
  if parts.getLast? = some [] then parts.dropLast else parts

/-- The last part is a number, so the name can only be an address. -/
def endsInNumber (s : List Char) : Bool :=
  match (dottedParts s).getLast? with
  | some part => (!part.isEmpty && part.all Number.isDigit) || (ipv4Number? part).isSome
  | none => false

/-- Up to four numbers. All but the last are octets, the last fills the octets that are left. -/
def numericAddress? (s : List Char) : Option IPv4 := do
  let parts := dottedParts s
  if 4 < parts.length then none
  let numbers ← parts.mapM ipv4Number?
  let last ← numbers.getLast?
  let front := numbers.dropLast
  if front.any (255 < ·) || Number.twoTo (8 * (4 - front.length)) ≤ last then none
  let n := front.foldl (fun n d => n * 256 + d) 0 * Number.twoTo (8 * (4 - front.length)) + last
  let octet (i : Nat) := UInt8.ofNat (n / Number.twoTo (8 * i))
  return ⟨#v[octet 3, octet 2, octet 1, octet 0]⟩

namespace Host

/-- An address of the sixth version, whose opening bracket has been read. -/
def ofBracketed (s : List Char) : Except UrlError Host :=
  match s.getLast?, IPv6.ofText? s.dropLast with
  | some ']', some a => .ok (.v6 a)
  | _, _ => .error .badIPv6

/-- The host of a scheme that always has one. -/
def ofName (s : List Char) : Except UrlError Host :=
  match s with
  | '[' :: s => ofBracketed s
  | s =>
    match (Text.Utf8.decode? (Percent.decode s)).bind fun d => Domain.toAscii? d.toList with
    | none => .error .badDomain
    | some [] => .error .emptyHost
    | some name =>
      if endsInNumber name then
        match numericAddress? name with
        | some a => .ok (.v4 a)
        | none => .error .badIPv4
      else .ok (.domain name)

def isForbiddenInOpaque (c : Char) : Bool :=
  c.toNat = 0 || [' ', '#', '/', ':', '<', '>', '?', '@', '[', '\\', ']', '^', '|'].contains c

/-- The host of any other scheme. -/
def ofOpaque (s : List Char) : Except UrlError Host :=
  match s with
  | '[' :: s => ofBracketed s
  | s =>
    if s.any isForbiddenInOpaque then .error .badDomainCharacter
    else .ok (.domain (Percent.encode Percent.isControl s))

end Host

/-! ### Authorities -/

/-- The text up to the last at sign, if there is one, and the text after it. -/
def splitUserinfo (s : List Char) : Option (List Char) × List Char :=
  let host := (s.reverse.takeWhile (· != '@')).reverse
  if host.length = s.length then (none, s) else (some (s.take (s.length - host.length - 1)), host)

/-- The host, and the port with its colon. A colon between brackets belongs to the host. -/
def splitPort : (inside : Bool) → List Char → List Char × List Char
  | _, [] => ([], [])
  | inside, c :: s =>
    if c = ':' && !inside then ([], c :: s)
    else
      let (host, port) := splitPort (if c = '[' then true else if c = ']' then false else inside) s
      (c :: host, port)

/-- The port behind a colon, unless it is missing or the default one. -/
def readPort (standard : Option UInt16) : List Char → Except UrlError (Option UInt16)
  | [] | [':'] => .ok none
  | _ :: s =>
    match port? s with
    | some p => .ok (if standard = some p then none else some p)
    | none => .error .badPort

/-- An authority; `followed` says that the text goes on behind it. -/
def Authority.ofText (scheme s : List Char) (followed : Bool) : Except UrlError Authority := do
  let (userinfo, rest) := splitUserinfo s
  if userinfo = some [] && rest.isEmpty && followed then throw .emptyHost
  let (user, password) := spanTo (· == ':') (userinfo.getD [])
  let user := Percent.encode Percent.inUserinfo user
  let password := Percent.encode Percent.inUserinfo (password.drop 1)
  let (name, port) := splitPort false rest
  let special := Url.isSpecialScheme scheme
  if name.isEmpty && (special || !port.isEmpty) then throw .emptyHost
  let host ← if special then Host.ofName name else Host.ofOpaque name
  let port ← readPort (Url.defaultPort? scheme) port
  if host = .domain [] && !(user.isEmpty && password.isEmpty) then throw .emptyHost
  return ⟨user, password, host, port⟩

/-! ### Paths -/

def isSingleDot (s : List Char) : Bool :=
  let s := s.map Char.toLower
  s == ['.'] || s == "%2e".toList

def isDoubleDot (s : List Char) : Bool :=
  let s := s.map Char.toLower
  s == "..".toList || s == ".%2e".toList || s == "%2e.".toList || s == "%2e%2e".toList

/-- A letter and a colon: the name of a drive. -/
def isDrive : List Char → Bool
  | [c, ':'] => c.isAlpha
  | _ => false

/-- A letter and a colon or a bar. -/
def isDriveLike : List Char → Bool
  | [c, d] => c.isAlpha && (d == ':' || d == '|')
  | _ => false

/-- The path one level up. A drive has no level above it. -/
def shorten (file : Bool) (done : List (List Char)) : List (List Char) :=
  match done with
  | [s] => if file && isDrive s then [s] else []
  | done => done.dropLast

/-- A segment as it is kept. The first segment of a file path may be a drive. -/
def keepSegment (file : Bool) (done : List (List Char)) (s : List Char) : List (List Char) :=
  if file && done.isEmpty && isDriveLike s then [s.take 1 ++ [':']]
  else done ++ [Percent.encode Percent.inPath s]

/-- Walks along the segments. One dot stays, two dots go up, and after dots at the end the last
segment is empty. -/
def resolve (file : Bool) (done : List (List Char)) : List (List Char) → List (List Char)
  | [] => done
  | [s] =>
    if isDoubleDot s then shorten file done ++ [[]]
    else if isSingleDot s then done ++ [[]]
    else keepSegment file done s
  | s :: rest =>
    resolve file
      (if isDoubleDot s then shorten file done
        else if isSingleDot s then done
        else keepSegment file done s) rest

/-- The segments of a path, whose first slash may be missing. -/
def readSegments (file : Bool) (s : List Char) : List (List Char) :=
  let s := match s with
    | '/' :: s => s
    | s => s
  let ss := pieces '/' s
  if !file then resolve false [] ss
  else
    -- a drive ends where its colon stands
    let ss := match ss with
      | (c :: ':' :: d :: s) :: rest =>
        if c.isAlpha then [c, ':'] :: (d :: s) :: rest else (c :: ':' :: d :: s) :: rest
      | ss => ss
    let ss := (resolve true [] ss).dropWhile List.isEmpty
    if ss.isEmpty then [[]] else ss

/-! ### URLs -/

def isSchemeChar (c : Char) : Bool := c.isAlphanum || c = '+' || c = '-' || c = '.'

/-- The scheme in small letters, and what follows the colon. -/
def readScheme? (s : List Char) : Option (List Char × List Char) :=
  match s.head?, s.dropWhile isSchemeChar with
  | some c, ':' :: rest =>
    if c.isAlpha then some ((s.takeWhile isSchemeChar).map Char.toLower, rest) else none
  | _, _ => none

/-- The authority and the path of a file. A drive in the place of a host belongs to the path, and a
path that starts with a drive has no host. -/
def readFile (s : List Char) : Except UrlError (Authority × UrlPath) := do
  match s with
  | '/' :: '/' :: s =>
    let (name, path) := spanTo (· == '/') s
    if isDriveLike name then return (⟨[], [], .domain [], none⟩, .segments (readSegments true s))
    let host ← if name.isEmpty then pure (.domain []) else Host.ofName name
    let ss := readSegments true path
    let host :=
      if host = .domain "localhost".toList || ss.head?.any isDrive then .domain [] else host
    return (⟨[], [], host, none⟩, .segments ss)
  | s => return (⟨[], [], .domain [], none⟩, .segments (readSegments true s))

/-- An authority and the path behind it. -/
def readHierarchy (scheme s : List Char) (followed : Bool) :
    Except UrlError (Authority × UrlPath) := do
  let (authority, path) := spanTo (· == '/') s
  let a ← Authority.ofText scheme authority (followed || !path.isEmpty)
  if path.isEmpty && !Url.isSpecialScheme scheme then return (a, .segments [])
  return (a, .segments (readSegments false path))

/-- The text between the scheme and the query. -/
def readBody (scheme s : List Char) (followed : Bool) :
    Except UrlError (Option Authority × UrlPath) := do
  let slashed := s.map fun c => if c = '\\' then '/' else c
  if Url.isFileScheme scheme then
    let (a, p) ← readFile slashed
    return (some a, p)
  else if Url.isSpecialScheme scheme then
    let (a, p) ← readHierarchy scheme (slashed.dropWhile (· == '/')) followed
    return (some a, p)
  else match s with
    | '/' :: '/' :: s => do
      let (a, p) ← readHierarchy scheme s followed
      return (some a, p)
    | '/' :: s => return (none, .segments (readSegments false s))
    | s => return (none, .plain (Percent.encode Percent.isControl s))

def isSurrounding (c : Char) : Bool := c.toNat ≤ 0x20

def isBreak (c : Char) : Bool := c = '\t' || c = '\n' || c = '\r'

/-- The text without what does not count. -/
def clean (s : List Char) : List Char :=
  let s := ((s.dropWhile isSurrounding).reverse.dropWhile isSurrounding).reverse
  s.filter (!isBreak ·)

def Url.ofText (s : List Char) : Except UrlError Url :=
  match readScheme? (clean s) with
  | none => .error .relative
  | some (scheme, s) => do
    let (s, fragment) := spanTo (· == '#') s
    let (body, query) := spanTo (· == '?') s
    let (authority, path) ← readBody scheme body (!query.isEmpty || !fragment.isEmpty)
    let querySet := if isSpecialScheme scheme then Percent.inSpecialQuery else Percent.inQuery
    let part (set : Char → Bool) (s : List Char) : Option (List Char) :=
      if s.isEmpty then none else some (Percent.encode set (s.drop 1))
    return ⟨scheme, authority, path, part querySet query, part Percent.inFragment fragment⟩

end Mockup.Network
