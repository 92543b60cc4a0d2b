import Chiptune.CommandLine
import Chiptune.Decimal.Exact
import Chiptune.Demo
import Chiptune.Files
import Chiptune.Graph.Host
import Chiptune.Graph.Source
import Chiptune.Output.Device
import Chiptune.Settings.Printer
import Chiptune.Settings.Reader
/-!
# Sessions

What a command line comes to, from the settings to the summary of a playback. A session ends
in one of three ways: it succeeds, it fails with a reason, or it breaks off because what was
asked for cannot be held at all.
-/

set_option autoImplicit false

namespace Chiptune

/-- Why settings kept in a file are not loaded or stored. -/
inductive StoreFault where
  | unreadable (path : String) (fault : FileFault)
  | invalid (path : String) (fault : Settings.TextFault)
  | unwritable (path : String) (fault : FileFault)

/-- Wording of the fault. -/
def StoreFault.message : StoreFault → String
  | unreadable path fault => "failed to read config: " ++ path ++ ": " ++ fault.message
  | invalid path fault => "invalid config file: " ++ path ++ ": " ++ fault.message
  | unwritable path fault => "failed to write config: " ++ path ++ ": " ++ fault.message

namespace Settings

/-- The settings in what was read from a path. -/
def ofFile (path : String) (contents : Except FileFault String) :
    Except StoreFault (Settings × Notice) :=
  match contents with
  | .error fault => .error (.unreadable path fault)
  | .ok text =>
    match ofText text with
    | .error fault => .error (.invalid path fault)
    | .ok s => .ok (s, .settingsLoaded path)

/-- Loads settings. -/
def load (files : Files) (path : String) : Except StoreFault (Settings × Notice) :=
  ofFile path (files.readText path)

/-- Stores settings. -/
def save (s : Settings) (files : Files) (path : String) : Except StoreFault Files :=
  match files.writeText path s.print with
  | .ok files => .ok files
  | .error fault => .error (.unwritable path fault)

end Settings

namespace Session

/-- Why a session fails. -/
inductive Fault where
  | usage (fault : CommandLine.UsageFault)
  | store (fault : StoreFault)
  | probe (fault : OutputFault)
  | settings (fault : SettingsFault)
  | graph (fault : GraphFault)
  | output (fault : OutputFault)

/-- Wording of the fault. -/
def Fault.message : Fault → String
  | usage fault => fault.message
  | store fault => fault.message
  | probe fault => "failed to open audio output: " ++ fault.message
  | settings fault => fault.message
  | graph fault => fault.message
  | output fault => fault.message

/-- How a session stops short. -/
inductive Stop where
  | failed (fault : Fault)
  /-- Broken off, with the last words. -/
  | crashed (message : String)

/-- What is reported of a playback. -/
structure Summary where
  settings : Settings
  options : RenderOptions
  published : Published
  blocksRendered : Nat
  blocksSkipped : Nat
  ticksIssued : Nat
  commandsDropped : Nat
  cycles : Nat
  dac : Option Relay.Report

namespace Summary

/-- Truth value as a word. -/
def word (b : Bool) : String := if b then "true" else "false"

/-- Line on the DAC relay. -/
def dacLine (r : Relay.Report) : String :=
  "- dac: level " ++ toString r.level ++ " ("
    ++ Decimal.fixed 1 (Decimal.ofSingle r.fillPercent) ++ "%), underruns "
    ++ toString r.underruns.toNat ++ ", overruns " ++ toString r.overruns.toNat

/-- Lines of the report. -/
def lines (s : Summary) : List String :=
  ["Playback Summary",
    "- sample rate: " ++ toString s.settings.sampleRate.toNat ++ " Hz",
    "- stereo: " ++ word s.options.stereo ++ ", filters: " ++ word s.options.filters,
    "- register writes: " ++ toString s.published.registerWrites.toNat,
    "- non-silent samples: " ++ toString s.published.nonSilentSamples.toNat,
    "- blocks rendered: " ++ toString s.blocksRendered,
    "- blocks skipped: " ++ toString s.blocksSkipped,
    "- frame ticks: " ++ toString s.ticksIssued ++ " issued, "
      ++ toString s.published.ticksApplied ++ " applied, "
      ++ toString s.published.ticksDropped ++ " dropped",
    "- commands dropped: " ++ toString s.commandsDropped,
    "- mixer cycles: " ++ toString s.cycles]
    ++ s.dac.toList.map dacLine

end Summary

/-- Turns a fault into the end of a session. -/
def orFail {ε α : Type} (cause : ε → Fault) (result : Except ε α) : Except Stop α :=
  match result with
  | .ok a => .ok a
  | .error fault => .error (.failed (cause fault))

/-- Breaks off on a fault. -/
def orCrash {ε α : Type} (words : ε → String) (result : Except ε α) : Except Stop α :=
  match result with
  | .ok a => .ok a
  | .error fault => .error (.crashed (words fault))

/-- The switches of a command line on top of the settings. -/
def applySwitches (i : Invocation) (s : Settings) : Settings :=
  { s with
    stereo := s.stereo && !i.mono
    filters := s.filters || i.filters }

/-- The settings of a session, given what can be read. -/
def settingsFor (i : Invocation) (read : String → Except FileFault String) :
    Except Stop (Settings × List Notice) := do
  match i.config with
  | some path =>
    let (s, notice) ← orFail .store (Settings.ofFile path (read path))
    pure (applySwitches i s, [notice])
  | none => pure (applySwitches i {}, [])

/-- Plays the demo on the default device. The part of it that is paced by a clock is left to
the host; without it the summary shows what was set up. -/
def play (i : Invocation) (s : Settings) (device : Option Device) :
    Except Stop (Summary × List Notice) := do
  let rate ← orFail .probe (Device.probeSampleRate device)
  let s := { s with sampleRate := rate }
  orFail .settings s.validate
  let pool ← orCrash StorageFault.message (Pool.createFor s.audioMemoryBlocks.toNat)
  let graph : Graph Source := .create pool
  let engine ← orCrash RingFault.message (Engine.create s)
  let engine := engine.loadSamples Demo.deltaSamples 0
  let connected := graph.connect (.engine 0)
  discard (orFail .graph connected.result)
  let (graph, relay, heard) ←
    if i.dac then do
      let relay ← orCrash RingFault.message
        (Relay.create s.dacBufferCapacity.toNat s.dacPrefillSamples.toNat)
      let joined := connected.state.connect (.relay 0)
      discard (orFail .graph joined.result)
      let switched := relay.state.setEnabled true
      pure (joined.state, some switched.state,
        relay.notices ++ joined.notices ++ switched.notices)
    else
      pure (connected.state, none, [])
  let opened ← orFail .output (Device.openDefault device)
  let started := engine.state.startTimer
  let voiced ← orCrash DemoFault.message (Demo.start started.state i.seconds)
  let e := voiced.state
  let stopped := e.stopTimer
  let torn := graph.muteAndDisconnect
  discard (orFail .graph torn.result)
  pure
    ({ settings := s
       options := e.options
       published := e.published
       blocksRendered := e.blocksRendered
       blocksSkipped := e.blocksSkipped
       ticksIssued := e.ticksIssued.toNat
       commandsDropped := e.commandsDropped
       cycles := torn.state.cycles
       dac := relay.map Relay.report },
      engine.notices ++ connected.notices ++ heard ++ opened.notices ++ started.notices
        ++ voiced.notices ++ stopped.notices ++ torn.notices)

/-- How a session comes to its end. -/
inductive Ending where
  | help
  | wrote (path : String)
  | played (summary : Summary)
  | stopped (stop : Stop)

/-- A session on a tree of files. -/
def run (files : Files) (device : Option Device) (args : List String) : Ending × Files :=
  match CommandLine.parse args with
  | .error fault => (.stopped (.failed (.usage fault)), files)
  | .ok .help => (.help, files)
  | .ok (.run i) =>
    match settingsFor i files.readText with
    | .error stop => (.stopped stop, files)
    | .ok (s, _) =>
      match i.writeConfig with
      | some path =>
        match s.save files path with
        | .ok files => (.wrote path, files)
        | .error fault => (.stopped (.failed (.store fault)), files)
      | none =>
        match play i s device with
        | .ok (summary, _) => (.played summary, files)
        | .error stop => (.stopped stop, files)

/-- Line that tells where settings were written. -/
def wroteLine (path : String) : String := "wrote " ++ path

end Session

end Chiptune
