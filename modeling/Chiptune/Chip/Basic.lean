import Chiptune.Chip.Dmc
import Chiptune.Chip.Filter
import Chiptune.Chip.FrameSequencer
import Chiptune.Chip.Mix
import Chiptune.Chip.Noise
import Chiptune.Chip.Pulse
import Chiptune.Chip.Register
import Chiptune.Chip.Triangle
import Chiptune.Frames
/-!
# The sound chip

Five voices, the frame sequencer, the shadow register file, the sample clock and the output
path, as one value. `Chip.write` applies a register write, `Chip.frameTick` a frame tick,
`Chip.clock` one processor clock, `Chip.nextSample` the clocks of one output sample.
-/

set_option autoImplicit false

namespace Chiptune

/-- How samples are rendered; nothing here influences the emulation. -/
structure RenderOptions where
  /-- Pan the voices instead of mixing to mono. -/
  stereo : Bool := false
  /-- Run the mix through the analog output path. -/
  filters : Bool := false
deriving DecidableEq, Repr

/-- Complete state of the chip. -/
structure Chip where
  pulse1 : Pulse := .powerUp true
  pulse2 : Pulse := .powerUp false
  triangle : Triangle := {}
  noise : Noise := {}
  dmc : Dmc := .powerUp
  sequencer : FrameSequencer := {}
  /-- Last value written to each shadowed offset. -/
  shadow : Vector UInt8 registerFileSize := Vector.replicate registerFileSize 0
  sampleRate : UInt32
  /-- Processor clocks per output sample. -/
  clocksPerSample : Float32
  /-- Part of a clock carried over from the last sample. -/
  accumulator : Float32 := 0.0
  /-- Pulses and noise are clocked at the next processor clock. -/
  evenClock : Bool := false
  coefficients : FilterCoefficients
  monoFilter : FilterChain := {}
  leftFilter : FilterChain := {}
  rightFilter : FilterChain := {}
  /-- Writes since power-up. -/
  registerWrites : UInt64 := 0
  /-- Samples since power-up of which a side was not zero. -/
  nonSilentSamples : UInt64 := 0

namespace Chip

/-- Processor clocks per sample at a rate. -/
def clocksAt (sampleRate : UInt32) : Float32 := cpuClockHz / sampleRate.toFloat32

/-- The chip at power-up; a rate of zero counts as one. -/
def powerUp (sampleRate : UInt32) : Chip :=
  let rate := max sampleRate 1
  { sampleRate := rate
    clocksPerSample := clocksAt rate
    coefficients := .ofRate rate }

/-- Back to power-up. The sample rate and what follows from it stay. -/
def reset (c : Chip) : Chip :=
  { c with
    pulse1 := .powerUp true
    pulse2 := .powerUp false
    triangle := {}
    noise := {}
    dmc := c.dmc.reset
    sequencer := {}
    shadow := Vector.replicate registerFileSize 0
    accumulator := 0.0
    evenClock := false
    monoFilter := {}
    leftFilter := {}
    rightFilter := {}
    registerWrites := 0
    nonSilentSamples := 0 }

/-- Changes the output rate; zero counts as one. -/
def setSampleRate (c : Chip) (sampleRate : UInt32) : Chip :=
  let rate := max sampleRate 1
  { c with
    sampleRate := rate
    clocksPerSample := clocksAt rate
    coefficients := .ofRate rate }

/-- Applies `f` to one of the pulse voices. -/
def mapPulse (c : Chip) (id : PulseId) (f : Pulse → Pulse) : Chip :=
  match id with
  | .one => { c with pulse1 := f c.pulse1 }
  | .two => { c with pulse2 := f c.pulse2 }

/-- Status register: the low five bits switch the voices. -/
def writeStatus (c : Chip) (value : UInt8) : Chip :=
  { c with
    pulse1 := c.pulse1.setEnabled (Byte.bit value 0)
    pulse2 := c.pulse2.setEnabled (Byte.bit value 1)
    triangle := c.triangle.setEnabled (Byte.bit value 2)
    noise := c.noise.setEnabled (Byte.bit value 3)
    dmc := c.dmc.setEnabled (Byte.bit value 4) }

/-- Clocks the three envelopes. -/
def clockEnvelopes (c : Chip) : Chip :=
  { c with
    pulse1 := c.pulse1.clockEnvelope
    pulse2 := c.pulse2.clockEnvelope
    noise := c.noise.clockEnvelope }

/-- Clocks the four length counters, then the two sweeps. -/
def clockHalfFrame (c : Chip) : Chip :=
  { c with
    pulse1 := c.pulse1.clockLength.clockSweep
    pulse2 := c.pulse2.clockLength.clockSweep
    triangle := c.triangle.clockLength
    noise := c.noise.clockLength }

/-- Clocks the triangle's linear counter. -/
def clockLinear (c : Chip) : Chip := { c with triangle := c.triangle.clockLinear }

/-- Frame counter register. Choosing five steps clocks everything once, at once. -/
def writeFrameCounter (c : Chip) (value : UInt8) : Chip :=
  let c := { c with sequencer := c.sequencer.write value }
  if c.sequencer.fiveStep then c.clockLinear.clockEnvelopes.clockHalfFrame else c

/-- Hands a value to the unit a register belongs to. -/
def dispatch (c : Chip) (register : Register) (value : UInt8) : Chip :=
  match register with
  | .pulseControl id => c.mapPulse id (·.writeControl value)
  | .pulseSweep id => c.mapPulse id (·.writeSweep value)
  | .pulseTimerLow id => c.mapPulse id (·.writeTimerLow value)
  | .pulseTimerHigh id => c.mapPulse id (·.writeTimerHigh value)
  | .triangleLinear => { c with triangle := c.triangle.writeLinear value }
  | .triangleTimerLow => { c with triangle := c.triangle.writeTimerLow value }
  | .triangleTimerHigh => { c with triangle := c.triangle.writeTimerHigh value }
  | .noiseControl => { c with noise := c.noise.writeControl value }
  | .noisePeriod => { c with noise := c.noise.writePeriod value }
  | .noiseLength => { c with noise := c.noise.writeLength value }
  | .dmcControl => { c with dmc := c.dmc.writeControl value }
  | .dmcDirectLoad => { c with dmc := c.dmc.writeLevel value }
  | .dmcSampleAddress => { c with dmc := c.dmc.writeAddress value }
  | .dmcSampleLength => { c with dmc := c.dmc.writeLength value }
  | .status => c.writeStatus value
  | .frameCounter => c.writeFrameCounter value
  | .unused _ => c
  | .expansion => c

/-- Remembers a value in the shadow file, for registers that have a place there. -/
def remember (c : Chip) (register : Register) (value : UInt8) : Chip :=
  match register.shadowIndex? with
  | some i => { c with shadow := c.shadow.setIfInBounds i value }
  | none => c

/-- Applies a write to a decoded register. -/
def write (c : Chip) (register : Register) (value : UInt8) : Chip :=
  ({ c with registerWrites := c.registerWrites + 1 }.remember register value).dispatch
    register value

/-- Applies a write to an offset, none if the chip does not answer to it. -/
def writeAddress? (c : Chip) (address value : UInt8) : Option Chip :=
  (Register.decode? address).map fun register => c.write register value

/-- Last value written to a shadowed offset. -/
def register? (c : Chip) (offset : Nat) : Option UInt8 := c.shadow[offset]?

/-- Which voices are still sounding, in the layout of a status read. -/
def status (c : Chip) : Nat :=
  (if c.pulse1.length.running then 1 else 0)
    + (if c.pulse2.length.running then 2 else 0)
    + (if c.triangle.length.running then 4 else 0)
    + (if c.noise.length.running then 8 else 0)
    + (if c.dmc.silent then 0 else 16)

/-- Loads delta sample data and gives the number of bytes kept. -/
def loadSamples (c : Chip) (data : Array UInt8) (offset : Nat) : Nat × Chip :=
  let (stored, dmc) := c.dmc.loadSamples data offset
  (stored, { c with dmc := dmc })

/-- Clocks what a step of the sequence asks for. -/
def clockEvents (c : Chip) (events : FrameEvents) : Chip :=
  let c := if events.halfFrame then c.clockHalfFrame else c
  if events.envelope then c.clockEnvelopes else c

/-- One tick of the 240 Hz frame clock. -/
def frameTick (c : Chip) : Chip :=
  let c := c.clockLinear
  let c := c.clockEvents c.sequencer.events
  { c with sequencer := c.sequencer.advance }

/-- One processor clock. Pulses and noise run at half the rate. -/
def clock (c : Chip) : Chip :=
  if c.evenClock then
    { c with
      triangle := c.triangle.clockTimer
      dmc := c.dmc.clockTimer
      pulse1 := c.pulse1.clockTimer
      pulse2 := c.pulse2.clockTimer
      noise := c.noise.clockTimer
      evenClock := false }
  else
    { c with
      triangle := c.triangle.clockTimer
      dmc := c.dmc.clockTimer
      evenClock := true }

/-- Levels of the voices. -/
def levels (c : Chip) : Levels :=
  { pulse1 := c.pulse1.output
    pulse2 := c.pulse2.output
    triangle := c.triangle.output
    noise := c.noise.output
    dmc := c.dmc.output
    noisePeriod := c.noise.periodIndex }

/-- More clocks than these never fall into one sample: the clock rate, and one for the part
carried over. -/
def maxClocksPerSample : Nat := 1789774

/-- Clocks the chip once for each whole clock in the accumulator, at most `fuel` times. -/
def drain : Nat → Chip → Float32 → Chip
  | 0, c, accumulator => { c with accumulator := accumulator }
  | fuel + 1, c, accumulator =>
    if 1.0 ≤ accumulator then
      drain fuel c.clock (accumulator - 1.0)
    else
      { c with accumulator := accumulator }

/-- Runs the clocks that fall into one output sample. -/
def runSampleClocks (c : Chip) : Chip :=
  drain maxClocksPerSample c (c.accumulator + c.clocksPerSample)

/-- Mixes the current levels, running the filters that are asked for. -/
def mix (c : Chip) (options : RenderOptions) : (Float32 × Float32) × Chip :=
  let levels := c.levels
  if options.stereo then
    let (left, right) := Mix.stereo levels
    if options.filters then
      let (left, leftFilter) := c.leftFilter.process c.coefficients left
      let (right, rightFilter) := c.rightFilter.process c.coefficients right
      ((left, right), { c with leftFilter := leftFilter, rightFilter := rightFilter })
    else
      ((left, right), c)
  else
    let mixed := Mix.mono levels
    if options.filters then
      let (mixed, monoFilter) := c.monoFilter.process c.coefficients mixed
      ((mixed, mixed), { c with monoFilter := monoFilter })
    else
      ((mixed, mixed), c)

/-- Turns the current levels into a frame, counting it if a side is not zero. -/
def emit (c : Chip) (options : RenderOptions) : Frame × Chip :=
  let ((left, right), c) := c.mix options
  let left := Mix.toPcm left
  let right := Mix.toPcm right
  let c :=
    if left != 0 || right != 0 then
      { c with nonSilentSamples := c.nonSilentSamples + 1 }
    else
      c
  ((left, right), c)

/-- Advances by one output sample and gives its frame. -/
def nextSample (c : Chip) (options : RenderOptions) : Frame × Chip :=
  c.runSampleClocks.emit options

/-- One output sample with `before i` applied ahead of it, `i` counting the samples. -/
def nextSampleWith (options : RenderOptions) (before : Nat → Chip → Chip) :
    Nat × Chip → Frame × (Nat × Chip)
  | (i, c) =>
    let (frame, c) := (before i c).nextSample options
    (frame, (i + 1, c))

/-- Renders over the frames that two buffers share, with `before i` applied ahead of
sample `i`, so that writes and ticks can land inside a block. -/
def renderWith (c : Chip) (options : RenderOptions) (before : Nat → Chip → Chip)
    (left right : List Int16) : (List Int16 × List Int16) × Chip :=
  let (sides, (_, c)) := fillPair (nextSampleWith options before) left right (0, c)
  (sides, c)

/-- Renders over the frames that two buffers share. -/
def render (c : Chip) (options : RenderOptions) (left right : List Int16) :
    (List Int16 × List Int16) × Chip :=
  fillPair (fun c : Chip => c.nextSample options) left right c

end Chip

end Chiptune
