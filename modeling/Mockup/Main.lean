import Mockup.Service

/-! The command line. The configuration file is read, what is said before and after serving is
printed, and the exit code is returned. Connections are the business of whoever embeds the library.
-/

open Mockup

/-- What stands on the disk at a path, as far as reading one file goes. -/
def diskWith (path : String) : IO Disk := do
  try
    let content ← IO.FS.readBinFile path
    let start : Disk := { workplace := ["work"] }
    let parent := (Disk.parent? path).getD ""
    let housed := (start.makeDirectories parent).toOption.getD start
    return (housed.write path content.toList).toOption.getD housed
  catch _ => return { workplace := ["work"] }

def printEvents (format : Config.LogFormat) (events : List Telemetry.Event) : IO Unit := do
  for e in events do
    let now ← IO.monoMsNow
    match format with
    | .text => IO.println (toString now ++ " " ++ e.text)
    | .json => IO.println e.json.write

def printSession (s : Service.Session) : IO UInt32 := do
  if let some w := s.warning then IO.eprintln w
  printEvents s.format s.opening
  match s.server with
  | .ok _ =>
    printEvents s.format s.closing
    return 0
  | .error e =>
    IO.eprintln e.message
    return 101

def main (arguments : List String) : IO UInt32 := do
  let mut known : List (String × String) := []
  for s in CommandLine.Switch.settings do
    if let some name := s.envVariable? then
      if let some value ← IO.getEnv name then known := (name, value) :: known
  let environment (name : String) : Option String := known.lookup name
  let disk ← match CommandLine.read environment arguments with
    | .ok (.run ⟨some path, _, _⟩) => diskWith path
    | _ => pure {}
  match Service.plan environment arguments disk with
  | .error refusal =>
    IO.eprint refusal.message
    return refusal.code.toUInt32
  | .ok (.help text) =>
    IO.print text
    return 0
  | .ok (.serve setup) =>
    printSession (Service.session (fun a => String.ofList a.text) setup)
