import Chiptune.Chip.Basic
import Chiptune.Engine.Pacer
import Chiptune.Notice
import Chiptune.Pool
import Chiptune.Ring
import Chiptune.Settings.Basic
/-!
# Engine

A chip together with what a host drives it by: a queue of register writes stamped with the
frame ticks issued before them, the frame timer's count, and the counters that the audio side
publishes after each block. The host calls `write`, `reset`, `tick`, `startTimer` and
`stopTimer`; the audio graph calls `update`.

A command is applied after every tick issued before it that was not dropped and before every
tick issued after it.
-/

set_option autoImplicit false

namespace Chiptune

/-- What the host asks of the chip. -/
inductive Command where
  | write (register : Register) (value : UInt8)
  | reset
deriving DecidableEq, Repr

namespace Command

/-- Carries out a command. -/
def apply (command : Command) (chip : Chip) : Chip :=
  match command with
  | write register value => chip.write register value
  | reset => chip.reset

/-- What the command is about, for reports. -/
def what : Command → String
  | write register _ => register.name
  | reset => "reset"

end Command

/-- A command with the count of ticks issued before it was queued. -/
structure QueuedCommand where
  tick : UInt32
  command : Command
deriving DecidableEq, Repr

/-- Counters that the audio side makes known after each block. -/
structure Published where
  registerWrites : UInt64 := 0
  nonSilentSamples : UInt64 := 0
  ticksApplied : Nat := 0
  ticksDropped : Nat := 0
  ticksPending : Nat := 0
deriving DecidableEq, Repr

/-- State of the engine, host and audio side together. -/
structure Engine where
  chip : Chip
  pacer : Pacer
  commands : Ring QueuedCommand
  options : RenderOptions
  /-- Ticks of the frame timer. -/
  ticksIssued : UInt32 := 0
  /-- Playback has been stopped; no block is rendered. -/
  stopping : Bool := false
  timerRunning : Bool := false
  /-- Commands that found the queue full. -/
  commandsDropped : Nat := 0
  published : Published := {}
  blocksRendered : Nat := 0
  blocksSkipped : Nat := 0

namespace Engine

/-- Bytes of a queued command. -/
def commandBytes : Nat := 8

/-- A silent engine whose timer does not run. -/
def create (settings : Settings) : Except RingFault Engine := do
  let commands ← Ring.createFor commandBytes settings.commandQueueCapacity.toNat
  let chip := Chip.powerUp settings.sampleRate
  pure
    { chip := chip
      pacer := .create chip.sampleRate
      commands := commands
      options := { stereo := settings.stereo, filters := settings.filters } }

/-! ### Host side -/

/-- Queues a command behind the ticks issued so far. A full queue drops it; drops are
reported at the first, second, fourth, eighth and so on. -/
def push (e : Engine) (command : Command) : Outcome Engine Bool :=
  let (taken, commands) := e.commands.write { tick := e.ticksIssued, command := command }
  let e := { e with commands := commands }
  if taken then
    { result := true, state := e }
  else
    let dropped := e.commandsDropped + 1
    { result := false
      state := { e with commandsDropped := dropped }
      notices :=
        if isPowerOfTwo dropped then [.commandDropped command.what dropped] else [] }

/-- Queues a register write; an offset the chip does not answer to is ignored. -/
def write (e : Engine) (address value : UInt8) : Outcome Engine Bool :=
  match Register.decode? address with
  | some register => e.push (.write register value)
  | none => { result := false, state := e, notices := [.unknownRegister address] }

/-- Queues register writes in order and gives how many were taken. -/
def writeAll (e : Engine) (writes : List (UInt8 × UInt8)) : Outcome Engine Nat :=
  writes.foldl (fun o (address, value) =>
    o.andThen fun taken e =>
      (e.write address value).map fun ok => if ok then taken + 1 else taken)
    { result := 0, state := e }

/-- Queues a return to power-up. The frame timer is left alone. -/
def reset (e : Engine) : Outcome Engine Bool := e.push .reset

/-- One firing of the frame timer, counted unless playback is being stopped. -/
def tick (e : Engine) : Engine :=
  if e.stopping then e else { e with ticksIssued := e.ticksIssued + 1 }

/-- Stops playback and the timer. Nothing is rendered until the timer is started again. -/
def stopTimer (e : Engine) : Outcome Engine Unit :=
  { result := ()
    state := { e with stopping := true, timerRunning := false }
    notices := [.sequencerStopped] }

/-- Starts the timer, stopping it first if it runs, and lets blocks be rendered. -/
def startTimer (e : Engine) : Outcome Engine Unit :=
  let stopped : Outcome Engine Unit :=
    if e.timerRunning then e.stopTimer else { result := (), state := e }
  stopped.andThen fun _ e =>
    { result := ()
      state := { e with stopping := false, timerRunning := true }
      notices := [.sequencerRunning] }

/-- Lets go of the host side; a running timer is stopped. -/
def dispose (e : Engine) : Outcome Engine Unit :=
  if e.timerRunning then e.stopTimer else { result := (), state := e }

/-- Loads delta sample data and gives the number of bytes kept. -/
def loadSamples (e : Engine) (data : Array UInt8) (offset : Nat) : Outcome Engine Nat :=
  let (stored, chip) := e.chip.loadSamples data offset
  { result := stored
    state := { e with chip := chip }
    notices :=
      [if stored < data.size then
        .samplesCut offset stored data.size
      else
        .samplesLoaded offset stored] }

/-- Share of the command queue in use, in percent. -/
def queueFill (e : Engine) : Float32 := e.commands.fillPercent

/-! ### Audio side -/

/-- Applies queued commands from the oldest on while their ticks have been replayed, at most
`fuel` of them. -/
def applyDue (pacer : Pacer) : Nat → Ring QueuedCommand → Chip → Ring QueuedCommand × Chip
  | 0, commands, chip => (commands, chip)
  | fuel + 1, commands, chip =>
    match commands.peek? with
    | none => (commands, chip)
    | some queued =>
      if pacer.hasReached queued.tick then
        applyDue pacer fuel commands.pop.2 (queued.command.apply chip)
      else
        (commands, chip)

/-- Applies every queued command that is due. -/
def applyCommands (e : Engine) : Engine :=
  let (commands, chip) := applyDue e.pacer e.commands.available e.commands e.chip
  { e with commands := commands, chip := chip }

/-- Work ahead of a sample: due commands, then the tick if one is due and the commands that
waited for it. -/
def beforeSample (e : Engine) : Engine :=
  let e := e.applyCommands
  match e.pacer.advance with
  | (true, pacer) => { e with pacer := pacer, chip := e.chip.frameTick }.applyCommands
  | (false, pacer) => { e with pacer := pacer }

/-- Renders one frame. -/
def nextFrame (e : Engine) : Frame × Engine :=
  let e := e.beforeSample
  let (frame, chip) := e.chip.nextSample e.options
  (frame, { e with chip := chip })

/-- Takes in the sample rate and the ticks issued since the last block. -/
def beginBlock (e : Engine) : Engine :=
  { e with pacer := (e.pacer.retune e.chip.sampleRate).observe e.ticksIssued }

/-- Makes the counters known and counts the block. -/
def publish (e : Engine) : Engine :=
  { e with
    published :=
      { registerWrites := e.chip.registerWrites
        nonSilentSamples := e.chip.nonSilentSamples
        ticksApplied := e.pacer.applied
        ticksDropped := e.pacer.dropped
        ticksPending := e.pacer.pending }
    blocksRendered := e.blocksRendered + 1 }

/-- Renders one block as a source of the audio graph. Nothing is rendered while stopping or
when the pool has no pair of blocks. -/
def update (e : Engine) (pool : Pool) : Option StereoBlock × Engine × Pool :=
  if e.stopping then
    (none, e, pool)
  else
    match pool.allocateStereo with
    | (none, pool) => (none, { e with blocksSkipped := e.blocksSkipped + 1 }, pool)
    | (some stale, pool) =>
      let (block, e) := stale.fill nextFrame e.beginBlock
      (some block, e.publish, pool)

end Engine

end Chiptune
