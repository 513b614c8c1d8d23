import Mockup.Disk
import Mockup.Text.Blank

/-! Uploaded designs. The bytes of an upload are kept in a file of their own for as long as the
request lasts. The file stands directly in the upload directory, under a fresh name. -/

namespace Mockup.Server

/-- The name and the bytes of a design. -/
structure Upload where
  filename : String
  content : Bytes
  deriving DecidableEq, Repr

def defaultFilename : String := "upload.png"

/-- The last component of a path, unless it is the directory above. -/
def lastComponent? (path : String) : Option String :=
  match (Disk.components path).getLast? with
  | some "." | some ".." => none
  | name => name

/-- The last component of the name that a client gave, if there is one that is not blank. -/
def sanitizeFilename (name : Option String) : String :=
  match name.bind lastComponent? with
  | some n => if Text.hasContent n.toList then n else defaultFilename
  | none => defaultFilename

/-- Why an upload could not be kept. -/
inductive StoreError where
  | directory (dir : String) (cause : DiskError)
  | file (path : String) (cause : DiskError)
  deriving DecidableEq, Repr

namespace StoreError

def message : StoreError → String
  | directory dir _ => "failed to create upload directory " ++ dir
  | file path _ => "failed to store upload at " ++ path

def cause : StoreError → DiskError
  | directory _ cause | file _ cause => cause

end StoreError

namespace Upload

/-- Where an upload is kept. -/
def path (dir uuid filename : String) : String := Disk.join dir (uuid ++ "-" ++ filename)

/-- Makes the upload directory, if it is missing. -/
def house (d : Disk) (dir : String) : Except StoreError Disk :=
  (d.makeDirectories dir).mapError (.directory dir)

/-- Writes the bytes of an upload to its place. -/
def write (d : Disk) (path : String) (u : Upload) : Except StoreError Disk :=
  (d.write path u.content).mapError (.file path)

/-- Keeps an upload; returns the path and the disk. When the file cannot be written the directory
stays. -/
def store (d : Disk) (dir uuid : String) (u : Upload) : Except StoreError String × Disk :=
  match house d dir with
  | .error e => (.error e, d)
  | .ok d =>
    let path := path dir uuid u.filename
    match write d path u with
    | .error e => (.error e, d)
    | .ok d => (.ok path, d)

/-- Removes the file of an upload, if it is still there. -/
def release (d : Disk) (path : String) : Disk := (d.remove path).toOption.getD d

end Upload

end Mockup.Server
