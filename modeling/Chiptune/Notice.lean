/-!
# Notices

What the parts of the player report while they work, as causes. `Notice.level` and
`Notice.message` give each its weight and its wording.
-/

set_option autoImplicit false

namespace Chiptune

/-- Weight of a notice. -/
inductive Level where
  | error
  | warn
  | info
  | debug
deriving DecidableEq, Repr

/-- Name of a level. -/
def Level.name : Level → String
  | error => "ERROR"
  | warn => "WARN"
  | info => "INFO"
  | debug => "DEBUG"

/-- Something worth reporting. -/
inductive Notice where
  | unknownRegister (address : UInt8)
  | commandDropped (what : String) (dropped : Nat)
  | sequencerRunning
  | sequencerStopped
  | samplesCut (offset stored given : Nat)
  | samplesLoaded (offset stored : Nat)
  | relaySwitched (enabled : Bool)
  | relayPrefilled (written : Nat)
  | relayReset
  | connectionAdded (id : UInt32)
  | connectionRemoved (id : UInt32)
  | connectionsRemoved
  | outputMuted
  | sourceReclaimed (id : UInt32)
  | sourceRejected (id : UInt32)
  | outputRunning (sampleRate channels : Nat)
  | outputTrouble (message : String)
  | settingsLoaded (path : String)
  | timerStarted (micros : Nat)
  | timerStopped
deriving DecidableEq, Repr

namespace Notice

/-- An address with its mark and two lower-case digits. -/
def hexByte (value : UInt8) : String :=
  "0x" ++ String.ofList [Nat.digitChar (value.toNat / 16), Nat.digitChar (value.toNat % 16)]

/-- Weight of a notice. -/
def level : Notice → Level
  | unknownRegister _ | samplesLoaded .. | relaySwitched _ | relayPrefilled _
  | sourceReclaimed _ | timerStarted _ | timerStopped => .debug
  | commandDropped .. | samplesCut .. | sourceRejected _ | outputTrouble _ => .warn
  | _ => .info

/-- Wording of a notice. -/
def message : Notice → String
  | unknownRegister address => "ignoring write to unknown register " ++ hexByte address
  | commandDropped what dropped =>
    "register command queue full, dropped " ++ what ++ " (" ++ toString dropped
      ++ " dropped so far)"
  | sequencerRunning => "frame sequencer running"
  | sequencerStopped => "frame sequencer stopped"
  | samplesCut offset stored given =>
    "DPCM load at offset " ++ toString offset ++ ": kept " ++ toString stored ++ " of "
      ++ toString given ++ " bytes"
  | samplesLoaded offset stored =>
    "DPCM load at offset " ++ toString offset ++ ": " ++ toString stored ++ " bytes"
  | relaySwitched enabled => "DAC relay " ++ (if enabled then "enabled" else "disabled")
  | relayPrefilled written =>
    "DAC relay prefilled " ++ toString written ++ " silence samples"
  | relayReset => "DAC relay reset"
  | connectionAdded id => "audio connection " ++ toString id.toNat ++ " added"
  | connectionRemoved id => "audio connection " ++ toString id.toNat ++ " removed"
  | connectionsRemoved => "all audio connections removed"
  | outputMuted => "audio output muted and all connections removed"
  | sourceReclaimed id => "reclaimed audio source " ++ toString id.toNat
  | sourceRejected id =>
    "audio graph was full, connection " ++ toString id.toNat ++ " rejected"
  | outputRunning sampleRate channels =>
    "audio output running at " ++ toString sampleRate ++ " Hz, " ++ toString channels
      ++ " channel(s)"
  | outputTrouble message => "audio stream error: " ++ message
  | settingsLoaded path => "loaded player config from " ++ path
  | timerStarted micros => "periodic timer started (" ++ toString micros ++ " us)"
  | timerStopped => "periodic timer stopped"

/-- Weight and wording on one line. -/
def line (n : Notice) : String := n.level.name ++ " " ++ n.message

end Notice

/-- What an operation leaves behind: its result, the new state and what it reported. -/
structure Outcome (σ α : Type) where
  result : α
  state : σ
  notices : List Notice := []

namespace Outcome

variable {σ α β : Type}

/-- A further operation on the state; the reports add up. -/
def andThen (o : Outcome σ α) (f : α → σ → Outcome σ β) : Outcome σ β :=
  let next := f o.result o.state
  { next with notices := o.notices ++ next.notices }

/-- Changes the result. -/
def map (o : Outcome σ α) (f : α → β) : Outcome σ β :=
  { result := f o.result, state := o.state, notices := o.notices }

/-- Puts the state into a larger one. -/
def within {τ : Type} (o : Outcome σ α) (put : σ → τ) : Outcome τ α :=
  { result := o.result, state := put o.state, notices := o.notices }

end Outcome

end Chiptune
