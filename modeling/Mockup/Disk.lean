import Mockup.Text.Utf8

/-! Files and directories. A place is the list of names from the root down; what is on a disk is a
list of places and what they hold. Paths are texts, and are walked name by name. -/

namespace Mockup

abbrev Place := List String

inductive DiskEntry where
  | directory
  | file (content : Bytes)
  deriving DecidableEq, Repr

/-- The root and the working directory are always there. -/
structure Disk where
  workplace : Place := []
  entries : List (Place × DiskEntry) := []

inductive DiskError where
  | notFound | alreadyExists | notDirectory | isDirectory | nameTooLong | nulInName | notText
  deriving DecidableEq, Repr

def DiskError.message : DiskError → String
  | notFound => "No such file or directory (os error 2)"
  | alreadyExists => "File exists (os error 17)"
  | notDirectory => "Not a directory (os error 20)"
  | isDirectory => "Is a directory (os error 21)"
  | nameTooLong => "File name too long (os error 36)"
  | nulInName => "file name contained an unexpected NUL byte"
  | notText => "stream did not contain valid UTF-8"

namespace Disk

def entry? (d : Disk) (p : Place) : Option DiskEntry :=
  if p.isPrefixOf d.workplace then some .directory else (d.entries.find? (·.1 == p)).map (·.2)

def set (d : Disk) (p : Place) (e : DiskEntry) : Disk :=
  { d with entries := d.entries.filter (·.1 != p) ++ [(p, e)] }

def erase (d : Disk) (p : Place) : Disk := { d with entries := d.entries.filter (·.1 != p) }

/-- The names of a path, without the empty ones. -/
def names (path : String) : List String :=
  ((path.toList.splitOn '/').filter (!·.isEmpty)).map String.ofList

def maxName : Nat := 255

def maxPath : Nat := 4095

/-- The directory that the names lead to from a directory. -/
def walk (d : Disk) (at_ : Place) : List String → Except DiskError Place
  | [] => .ok at_
  | name :: rest =>
    if name = "." then walk d at_ rest
    else if name = ".." then walk d at_.dropLast rest
    else if maxName < name.utf8ByteSize then .error .nameTooLong
    else match d.entry? (at_ ++ [name]) with
      | none => .error .notFound
      | some (.file _) => .error .notDirectory
      | some .directory => walk d (at_ ++ [name]) rest

/-- What a path leads to. -/
inductive Target where
  | directory (place : Place)
  | file (place : Place) (content : Bytes)
  | vacant (place : Place)
  deriving Repr

/-- Where a path starts. -/
def origin (d : Disk) (path : String) : Place :=
  if path.toList.head? = some '/' then [] else d.workplace

/-- What the last name of a path leads to from the directory that the names before it lead to. -/
def arrive (d : Disk) (path : String) (at_ : Place) (name : String) : Except DiskError Target :=
  if name = "." then .ok (.directory at_)
  else if name = ".." then .ok (.directory at_.dropLast)
  else if maxName < name.utf8ByteSize then .error .nameTooLong
  else match d.entry? (at_ ++ [name]) with
    | none => .ok (.vacant (at_ ++ [name]))
    | some .directory => .ok (.directory (at_ ++ [name]))
    | some (.file content) =>
      if path.toList.getLast? = some '/' then .error .notDirectory
      else .ok (.file (at_ ++ [name]) content)

def locate (d : Disk) (path : String) : Except DiskError Target :=
  if path.toList.contains (Char.ofNat 0) then .error .nulInName
  else if path.isEmpty then .error .notFound
  else if maxPath < path.utf8ByteSize then .error .nameTooLong
  else match (names path).getLast? with
    | none => .ok (.directory [])
    | some name => (d.walk (d.origin path) (names path).dropLast).bind (d.arrive path · name)

def isDirectory (d : Disk) (path : String) : Bool :=
  match d.locate path with
  | .ok (.directory _) => true
  | _ => false

def read (d : Disk) (path : String) : Except DiskError Bytes := do
  match ← d.locate path with
  | .directory _ => throw .isDirectory
  | .vacant _ => throw .notFound
  | .file _ content => return content

def readText (d : Disk) (path : String) : Except DiskError String := do
  match Text.Utf8.decode? (← d.read path) with
  | some s => return s
  | none => throw .notText

/-- Writes a file, in the place of the one that may be there. -/
def write (d : Disk) (path : String) (content : Bytes) : Except DiskError Disk := do
  match ← d.locate path with
  | .directory _ => throw .isDirectory
  | .file p _ => return d.set p (.file content)
  | .vacant p =>
    if path.toList.getLast? = some '/' then throw .isDirectory
    return d.set p (.file content)

/-- Removes a file. -/
def remove (d : Disk) (path : String) : Except DiskError Disk := do
  match ← d.locate path with
  | .directory _ => throw .isDirectory
  | .vacant _ => throw .notFound
  | .file p _ => return d.erase p

def makeDirectory (d : Disk) (path : String) : Except DiskError Disk := do
  match ← d.locate path with
  | .vacant p => return d.set p .directory
  | _ => throw .alreadyExists

/-- The components of a path: its names without the dots that stand for the directory they are in,
except a leading one. -/
def components (path : String) : List String :=
  let names := names path
  if path.toList.head? = some '/' then names.filter (· != ".")
  else match names with
    | "." :: rest => "." :: rest.filter (· != ".")
    | names => names.filter (· != ".")

def joinComponents (absolute : Bool) (cs : List String) : String :=
  (if absolute then "/" else "") ++ String.intercalate "/" cs

/-- The path without its last component; a path without any has no parent. -/
def parent? (path : String) : Option String :=
  let cs := components path
  if cs.isEmpty then none
  else some (joinComponents (path.toList.head? = some '/') cs.dropLast)

/-- Makes a directory, unless it is there. -/
def provideDirectory (d : Disk) (path : String) : Except DiskError Disk :=
  match d.makeDirectory path with
  | .ok d => .ok d
  | .error e => if d.isDirectory path then .ok d else .error e

/-- Makes a directory and those above it that are missing. `fuel` bounds the climb; each step up
drops a component. -/
def makeDirectoriesWithin : Nat → Disk → String → Except DiskError Disk
  | 0, _, _ => .error .notFound
  | fuel + 1, d, path =>
    if path.isEmpty then .ok d
    else match d.makeDirectory path with
      | .error .notFound =>
        match parent? path with
        | none => .error .notFound
        | some parent => (makeDirectoriesWithin fuel d parent).bind (·.provideDirectory path)
      | _ => d.provideDirectory path

def makeDirectories (d : Disk) (path : String) : Except DiskError Disk :=
  makeDirectoriesWithin ((components path).length + 2) d path

/-- The path of a name in a directory. -/
def join (dir name : String) : String :=
  if dir.isEmpty || dir.toList.getLast? = some '/' then dir ++ name else dir ++ "/" ++ name

/-- The files below the working directory, and the directories that hold nothing, with a slash. -/
def listing (d : Disk) : List String :=
  let below := d.entries.filter fun (p, _) => d.workplace.isPrefixOf p
  below.filterMap fun (p, e) =>
    let path := String.intercalate "/" (p.drop d.workplace.length)
    match e with
    | .file _ => some path
    | .directory =>
      if below.any fun (q, _) => p.isPrefixOf q && p != q then none else some (path ++ "/")

end Disk

end Mockup
