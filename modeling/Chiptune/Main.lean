import Chiptune.Session
/-!
# Command line of the player

Reads and writes real files and prints what a session comes to. There is no audio device
behind this program, so that a playback ends where the output would be opened.
-/

set_option autoImplicit false

open Chiptune

/-- The system's words for a failure, as a cause. -/
def fileFaultOf (error : IO.Error) : FileFault :=
  match error with
  | .noFileOrDirectory .. => .notFound
  | other => .other (toString other)

/-- The text of a real file. -/
def readFile (path : String) : IO (Except FileFault String) := do
  try
    return Files.decode (← IO.FS.readBinFile path)
  catch error =>
    return .error (fileFaultOf error)

/-- Prints the notices that are to be seen. -/
def report (verbose : Bool) (notices : List Notice) : IO Unit := do
  for notice in notices do
    if verbose || notice.level != .debug then
      IO.eprintln notice.line

/-- Tells why a session stopped and gives its exit code. -/
def tellStop (stop : Session.Stop) : IO UInt32 := do
  match stop with
  | .failed fault =>
    IO.eprintln ("Error: " ++ fault.message)
    return 1
  | .crashed message =>
    IO.eprintln message
    return 101

/-- Runs what was asked for. -/
def perform (i : Invocation) : IO UInt32 := do
  let contents ← match i.config with
    | some path => readFile path
    | none => pure (.error .notFound)
  match Session.settingsFor i (fun _ => contents) with
  | .error stop => tellStop stop
  | .ok (s, notices) =>
    report i.verbose notices
    match i.writeConfig with
    | some path =>
      try
        IO.FS.writeFile path s.print
        IO.println (Session.wroteLine path)
        return 0
      catch error =>
        tellStop (.failed (.store (.unwritable path (fileFaultOf error))))
    | none =>
      match Session.play i s none with
      | .ok (summary, notices) =>
        report i.verbose notices
        IO.println ""
        for line in summary.lines do
          IO.println line
        return 0
      | .error stop => tellStop stop

/-- Runs a command line and gives the exit code. -/
def main (args : List String) : IO UInt32 := do
  match CommandLine.parse args with
  | .error fault => tellStop (.failed (.usage fault))
  | .ok .help =>
    IO.println CommandLine.helpText
    return 0
  | .ok (.run i) => perform i
