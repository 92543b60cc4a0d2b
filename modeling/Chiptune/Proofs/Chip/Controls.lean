import Chiptune.Proofs.Chip.DeltaReader
import Chiptune.Proofs.Chip.Lengths

/-!
# `Chiptune.Proofs.Chip.Controls`: what is written to a register stays there

A register write leaves its value twice: as it is in the shadow file, and decoded in the unit
that the register belongs to, among the fields that the unit counts with. `Chip.controls` are
the decoded values. `ChipControls.write` says what a write makes of them, and every other
operation but a reset leaves them as they are (`Chip.controls_run`).

`Past.written` is the value last written to a register since the last reset, of a history with
the latest operation first, and `Past.controls` is what the chip is then set to: each control
decodes the value last written to its register, or has its value at power-up.

* `Chip.register?_write`, `Chip.register?_of_other`: what operations do to the shadow file.
* `Register.eq_of_offset`: two registers that the chip answers to do not share an offset.
* `Chip.registers_agree`: the main statement, over every run from power-up.
-/

set_option autoImplicit false

namespace Chiptune

namespace Byte

theorem field_eq (value : UInt8) (low width : Nat) :
    field value low width = value.toNat / 2 ^ low % 2 ^ width := by
  rw [field, Nat.shiftRight_eq_div_pow, Nat.one_shiftLeft]

/-- The top two bits are what is left of a byte after a division. -/
theorem field_six_two (value : UInt8) : field value 6 2 = value.toNat / 64 := by
  have hlt := value.toNat_lt
  rw [field_eq]
  omega

end Byte

/-! ### Controls -/

/-- What a control register sets that an envelope and a length counter share. -/
structure EnvelopeControls where
  /-- The length counter is held. -/
  hold : Bool := false
  loop : Bool := false
  constantVolume : Bool := true
  period : Nat := 0
deriving DecidableEq, Repr

/-- What a sweep register sets. -/
structure SweepControls where
  enabled : Bool := false
  period : Nat := 0
  negate : Bool := false
  shift : Nat := 0
deriving DecidableEq, Repr

/-- What is set of a pulse voice. -/
structure PulseControls where
  enabled : Bool := false
  duty : Nat := 0
  envelope : EnvelopeControls := {}
  sweep : SweepControls := {}
deriving DecidableEq, Repr

/-- What is set of the triangle voice. The two parts of its period can be told apart. -/
structure TriangleControls where
  enabled : Bool := false
  control : Bool := false
  reload : Nat := 0
  timerLow : Nat := 0
  timerHigh : Nat := 0
deriving DecidableEq, Repr

/-- What is set of the noise voice. -/
structure NoiseControls where
  enabled : Bool := false
  envelope : EnvelopeControls := {}
  shortMode : Bool := false
  periodIndex : Nat := 0
deriving DecidableEq, Repr

/-- What is set of the delta voice. -/
structure DmcControls where
  enabled : Bool := false
  irqEnabled : Bool := false
  loop : Bool := false
  rateIndex : Nat := 0
  startAddress : Nat := 0
  configuredLength : Nat := 0
deriving DecidableEq, Repr

/-- What the frame counter register sets. -/
structure FrameControls where
  fiveStep : Bool := false
  irqInhibit : Bool := true
deriving DecidableEq, Repr

/-- What registers set of a chip. The values without a write are those at power-up. -/
structure ChipControls where
  pulse1 : PulseControls := {}
  pulse2 : PulseControls := {}
  triangle : TriangleControls := {}
  noise : NoiseControls := {}
  dmc : DmcControls := {}
  frame : FrameControls := {}
deriving DecidableEq, Repr

/-- Bit 5 holds the length counter and loops, bit 4 fixes the volume, the rest is the period. -/
def EnvelopeControls.decode (value : UInt8) : EnvelopeControls :=
  { hold := value.toNat.testBit 5
    loop := value.toNat.testBit 5
    constantVolume := value.toNat.testBit 4
    period := value.toNat % 16 }

/-- Bit 7 enables, bits 4 to 6 are the period, bit 3 negates, the rest is the shift. -/
def SweepControls.decode (value : UInt8) : SweepControls :=
  { enabled := value.toNat.testBit 7
    period := value.toNat / 16 % 8
    negate := value.toNat.testBit 3
    shift := value.toNat % 8 }

/-- Bit 7 selects five steps, bit 6 inhibits the interrupt. -/
def FrameControls.decode (value : UInt8) : FrameControls :=
  { fiveStep := value.toNat.testBit 7, irqInhibit := value.toNat.testBit 6 }

namespace ChipControls

/-- Changes what is set of one of the pulse voices. -/
def mapPulse (k : ChipControls) (id : PulseId) (f : PulseControls → PulseControls) :
    ChipControls :=
  match id with
  | .one => { k with pulse1 := f k.pulse1 }
  | .two => { k with pulse2 := f k.pulse2 }

/-- Switches the voices. -/
def switch (k : ChipControls) (value : UInt8) : ChipControls :=
  { k with
    pulse1 := { k.pulse1 with enabled := value.toNat.testBit 0 }
    pulse2 := { k.pulse2 with enabled := value.toNat.testBit 1 }
    triangle := { k.triangle with enabled := value.toNat.testBit 2 }
    noise := { k.noise with enabled := value.toNat.testBit 3 }
    dmc := { k.dmc with enabled := value.toNat.testBit 4 } }

/-- What is set after a register write. -/
def write (k : ChipControls) (register : Register) (value : UInt8) : ChipControls :=
  match register with
  | .pulseControl id =>
    k.mapPulse id fun p => { p with duty := value.toNat / 64, envelope := .decode value }
  | .pulseSweep id => k.mapPulse id fun p => { p with sweep := .decode value }
  | .triangleLinear =>
    { k with triangle :=
      { k.triangle with control := value.toNat.testBit 7, reload := value.toNat % 128 } }
  | .triangleTimerLow => { k with triangle := { k.triangle with timerLow := value.toNat } }
  | .triangleTimerHigh =>
    { k with triangle := { k.triangle with timerHigh := value.toNat % 8 } }
  | .noiseControl => { k with noise := { k.noise with envelope := .decode value } }
  | .noisePeriod =>
    { k with noise :=
      { k.noise with shortMode := value.toNat.testBit 7, periodIndex := value.toNat % 16 } }
  | .dmcControl =>
    { k with dmc :=
      { k.dmc with
        irqEnabled := value.toNat.testBit 7
        loop := value.toNat.testBit 6
        rateIndex := value.toNat % 16 } }
  | .dmcSampleAddress =>
    { k with dmc := { k.dmc with startAddress := 0xC000 + 64 * value.toNat } }
  | .dmcSampleLength =>
    { k with dmc := { k.dmc with configuredLength := 16 * value.toNat + 1 } }
  | .status => k.switch value
  | .frameCounter => { k with frame := .decode value }
  | .pulseTimerLow _ | .pulseTimerHigh _ | .noiseLength | .dmcDirectLoad | .unused _
  | .expansion => k

end ChipControls

/-- What is set of a length counter and an envelope. -/
def EnvelopeControls.of (length : LengthCounter) (envelope : Envelope) : EnvelopeControls :=
  { hold := length.halt
    loop := envelope.loop
    constantVolume := envelope.constantVolume
    period := envelope.period }

/-- What is set of a sweep unit. -/
def Sweep.controls (s : Sweep) : SweepControls :=
  { enabled := s.enabled, period := s.period, negate := s.negate, shift := s.shift }

def Pulse.controls (p : Pulse) : PulseControls :=
  { enabled := p.enabled
    duty := p.duty
    envelope := .of p.length p.envelope
    sweep := p.sweep.controls }

def Triangle.controls (t : Triangle) : TriangleControls :=
  { enabled := t.enabled
    control := t.control
    reload := t.linearReload
    timerLow := t.period % 256
    timerHigh := t.period / 256 % 8 }

def Noise.controls (n : Noise) : NoiseControls :=
  { enabled := n.enabled
    envelope := .of n.length n.envelope
    shortMode := n.shortMode
    periodIndex := n.periodIndex }

def Dmc.Setup.controls (s : Setup) : DmcControls :=
  { enabled := s.enabled
    irqEnabled := s.irqEnabled
    loop := s.loop
    rateIndex := s.rateIndex
    startAddress := s.startAddress
    configuredLength := s.configuredLength }

def FrameSequencer.controls (s : FrameSequencer) : FrameControls :=
  { fiveStep := s.fiveStep, irqInhibit := s.irqInhibit }

/-- What registers have set of a chip. -/
def Chip.controls (c : Chip) : ChipControls :=
  { pulse1 := c.pulse1.controls
    pulse2 := c.pulse2.controls
    triangle := c.triangle.controls
    noise := c.noise.controls
    dmc := c.dmc.setup.controls
    frame := c.sequencer.controls }

/-! ### Controls of the units -/

namespace EnvelopeControls

@[simp] theorem of_clock (length : LengthCounter) (envelope : Envelope) :
    of length envelope.clock = of length envelope := by
  unfold Envelope.clock
  split
  · rfl
  · split
    · rfl
    · rfl

@[simp] theorem of_length_clock (length : LengthCounter) (envelope : Envelope) :
    of length.clock envelope = of length envelope := by
  unfold LengthCounter.clock
  split
  · rfl
  · rfl

@[simp] theorem of_gate (length : LengthCounter) (envelope : Envelope) (enabled : Bool) :
    of (length.gate enabled) envelope = of length envelope := by
  cases enabled with
  | true => rfl
  | false => rfl

theorem of_writeControl (length : LengthCounter) (envelope : Envelope) (value : UInt8) :
    of (length.setHalt (Byte.bit value 5)) (envelope.writeControl value) = decode value := by
  have hperiod : Byte.field value 0 4 = value.toNat % 16 := by simp [Byte.field_eq]
  simp [of, decode, LengthCounter.setHalt, Envelope.writeControl, hperiod, Byte.bit]

end EnvelopeControls

namespace Pulse

theorem controls_writeControl (p : Pulse) (value : UInt8) :
    (p.writeControl value).controls
      = { p.controls with duty := value.toNat / 64, envelope := .decode value } := by
  simp [controls, writeControl, Byte.field_six_two, EnvelopeControls.of_writeControl]

theorem controls_writeSweep (p : Pulse) (value : UInt8) :
    (p.writeSweep value).controls = { p.controls with sweep := .decode value } := by
  have hperiod : Byte.field value 4 3 = value.toNat / 16 % 8 := by simp [Byte.field_eq]
  have hshift : Byte.field value 0 3 = value.toNat % 8 := by simp [Byte.field_eq]
  simp [controls, writeSweep, settleMuting, Sweep.controls, Sweep.write, SweepControls.decode,
    hperiod, hshift, Byte.bit]

theorem controls_writeTimerLow (p : Pulse) (value : UInt8) :
    (p.writeTimerLow value).controls = p.controls := rfl

theorem controls_writeTimerHigh (p : Pulse) (value : UInt8) :
    (p.writeTimerHigh value).controls = p.controls := rfl

theorem controls_setEnabled (p : Pulse) (enabled : Bool) :
    (p.setEnabled enabled).controls = { p.controls with enabled := enabled } := by
  simp [controls, setEnabled]

@[simp] theorem controls_clockTimer (p : Pulse) : p.clockTimer.controls = p.controls := by
  unfold clockTimer
  split
  · rfl
  · rfl

@[simp] theorem controls_clockEnvelope (p : Pulse) : p.clockEnvelope.controls = p.controls := by
  simp [controls, clockEnvelope]

@[simp] theorem controls_clockLength (p : Pulse) : p.clockLength.controls = p.controls := by
  simp [controls, clockLength]

/-- A sweep changes the period and its own divider, and neither is set by a control. -/
@[simp] theorem controls_clockSweep (p : Pulse) : p.clockSweep.controls = p.controls := by
  have hdivider : p.sweep.clockDivider.2.controls = p.sweep.controls := by
    unfold Sweep.clockDivider
    split
    · rfl
    · split
      · rfl
      · rfl
  have hsweep : { p with sweep := p.sweep.clockDivider.2 }.controls = p.controls := by
    simp [controls, hdivider]
  unfold clockSweep
  dsimp only
  split
  · split
    · exact hsweep
    · exact hsweep
  · exact hsweep

end Pulse

namespace Triangle

theorem controls_writeLinear (t : Triangle) (value : UInt8) :
    (t.writeLinear value).controls
      = { t.controls with control := value.toNat.testBit 7, reload := value.toNat % 128 } := by
  have hreload : Byte.field value 0 7 = value.toNat % 128 := by simp [Byte.field_eq]
  simp [controls, control, writeLinear, LengthCounter.setHalt, hreload, Byte.bit]

theorem controls_writeTimerLow (t : Triangle) (value : UInt8) :
    (t.writeTimerLow value).controls = { t.controls with timerLow := value.toNat } := by
  have hlt := value.toNat_lt
  have hlow : (t.period / 256 % 8 * 256 + value.toNat) % 256 = value.toNat := by omega
  have hhigh : (t.period / 256 % 8 * 256 + value.toNat) / 256 % 8 = t.period / 256 % 8 := by omega
  simp [controls, control, writeTimerLow, setPeriod, hlow, hhigh]

theorem controls_writeTimerHigh (t : Triangle) (value : UInt8) :
    (t.writeTimerHigh value).controls = { t.controls with timerHigh := value.toNat % 8 } := by
  have hfield : Byte.field value 0 3 = value.toNat % 8 := by simp [Byte.field_eq]
  have hlow : (t.period % 256 + value.toNat % 8 * 256) % 256 = t.period % 256 := by omega
  have hhigh : (t.period % 256 + value.toNat % 8 * 256) / 256 % 8 = value.toNat % 8 := by omega
  simp [controls, control, writeTimerHigh, setPeriod, LengthCounter.load, hfield, hlow, hhigh]

theorem controls_setEnabled (t : Triangle) (enabled : Bool) :
    (t.setEnabled enabled).controls = { t.controls with enabled := enabled } := by
  cases enabled with
  | true => rfl
  | false => rfl

/-- The period has no parts beyond those that are written. -/
theorem period_eq_of_bounded {t : Triangle} (h : t.Bounded) :
    t.period = t.controls.timerLow + 256 * t.controls.timerHigh := by
  have hperiod := h.period
  show t.period = t.period % 256 + 256 * (t.period / 256 % 8)
  omega

@[simp] theorem controls_clockTimer (t : Triangle) : t.clockTimer.controls = t.controls := by
  unfold clockTimer
  split
  · rfl
  · rfl

@[simp] theorem controls_clockLinear (t : Triangle) : t.clockLinear.controls = t.controls := rfl

@[simp] theorem controls_clockLength (t : Triangle) : t.clockLength.controls = t.controls := by
  unfold clockLength LengthCounter.clock
  split
  · rfl
  · rfl

end Triangle

namespace Noise

theorem controls_writeControl (n : Noise) (value : UInt8) :
    (n.writeControl value).controls = { n.controls with envelope := .decode value } := by
  simp [controls, writeControl, EnvelopeControls.of_writeControl]

theorem controls_writePeriod (n : Noise) (value : UInt8) :
    (n.writePeriod value).controls
      = { n.controls with
          shortMode := value.toNat.testBit 7, periodIndex := value.toNat % 16 } := by
  have hperiod : Byte.field value 0 4 = value.toNat % 16 := by simp [Byte.field_eq]
  simp [controls, writePeriod, hperiod, Byte.bit]

theorem controls_writeLength (n : Noise) (value : UInt8) :
    (n.writeLength value).controls = n.controls := rfl

theorem controls_setEnabled (n : Noise) (enabled : Bool) :
    (n.setEnabled enabled).controls = { n.controls with enabled := enabled } := by
  simp [controls, setEnabled]

@[simp] theorem controls_clockTimer (n : Noise) : n.clockTimer.controls = n.controls := by
  unfold clockTimer
  split
  · rfl
  · rfl

@[simp] theorem controls_clockEnvelope (n : Noise) : n.clockEnvelope.controls = n.controls := by
  simp [controls, clockEnvelope]

@[simp] theorem controls_clockLength (n : Noise) : n.clockLength.controls = n.controls := by
  simp [controls, clockLength]

end Noise

namespace Dmc

theorem controls_writeControl (d : Dmc) (value : UInt8) :
    (d.writeControl value).setup.controls
      = { d.setup.controls with
          irqEnabled := value.toNat.testBit 7
          loop := value.toNat.testBit 6
          rateIndex := value.toNat % 16 } := by
  have hrate : Byte.field value 0 4 = value.toNat % 16 := by simp [Byte.field_eq]
  simp [writeControl, setup, Setup.controls, hrate, Byte.bit]

theorem controls_writeAddress (d : Dmc) (value : UInt8) :
    (d.writeAddress value).setup.controls
      = { d.setup.controls with startAddress := 0xC000 + 64 * value.toNat } := by
  simp [writeAddress, setup, Setup.controls, sampleBase, Nat.mul_comm]

theorem controls_writeLength (d : Dmc) (value : UInt8) :
    (d.writeLength value).setup.controls
      = { d.setup.controls with configuredLength := 16 * value.toNat + 1 } := by
  rw [setup_writeLength]
  simp [Setup.controls, Nat.mul_comm]

theorem controls_setEnabled (d : Dmc) (enabled : Bool) :
    (d.setEnabled enabled).setup.controls = { d.setup.controls with enabled := enabled } := by
  rw [setup_setEnabled]
  rfl

theorem controls_loadSamples (d : Dmc) (data : Array UInt8) (offset : Nat) :
    (d.loadSamples data offset).2.setup.controls = d.setup.controls := by
  rcases d.loadSamples_cases data offset with hsame | ⟨memory, hload⟩
  · rw [hsame]
  · rw [hload]
    rfl

end Dmc

/-! ### Controls of the chip -/

/-- Whether the operation is a register write, or a reset, which undoes all of them. -/
def ChipOp.setsRegisters : ChipOp → Bool
  | .write _ _ | .reset => true
  | .load _ _ | .frameTick | .clock | .sample _ | .setRate _ => false

/-- What is set after an operation. -/
def ChipOp.controlled (k : ChipControls) : ChipOp → ChipControls
  | .write register value => k.write register value
  | .reset => {}
  | .load _ _ | .frameTick | .clock | .sample _ | .setRate _ => k

namespace Chip

/-- A change of a pulse voice changes what is set of it. -/
theorem controls_mapPulse (c : Chip) (id : PulseId) (f : Pulse → Pulse)
    (g : PulseControls → PulseControls) (h : ∀ p : Pulse, (f p).controls = g p.controls) :
    (c.mapPulse id f).controls = c.controls.mapPulse id g := by
  cases id with
  | one => simp [mapPulse, controls, ChipControls.mapPulse, h]
  | two => simp [mapPulse, controls, ChipControls.mapPulse, h]

theorem controls_mapPulse_of_same (c : Chip) (id : PulseId) {f : Pulse → Pulse}
    (h : ∀ p : Pulse, (f p).controls = p.controls) : (c.mapPulse id f).controls = c.controls := by
  rw [c.controls_mapPulse id f (fun k => k) h]
  cases id with
  | one => rfl
  | two => rfl

theorem controls_writeStatus (c : Chip) (value : UInt8) :
    (c.writeStatus value).controls = c.controls.switch value := by
  simp [writeStatus, controls, ChipControls.switch, Pulse.controls_setEnabled,
    Triangle.controls_setEnabled, Noise.controls_setEnabled, Dmc.controls_setEnabled, Byte.bit]

@[simp] theorem controls_clockEnvelopes (c : Chip) : c.clockEnvelopes.controls = c.controls := by
  simp [clockEnvelopes, controls]

@[simp] theorem controls_clockHalfFrame (c : Chip) : c.clockHalfFrame.controls = c.controls := by
  simp [clockHalfFrame, controls]

@[simp] theorem controls_clockLinear (c : Chip) : c.clockLinear.controls = c.controls := by
  simp [clockLinear, controls]

@[simp] theorem controls_clockEvents (c : Chip) (events : FrameEvents) :
    (c.clockEvents events).controls = c.controls := by
  unfold clockEvents
  dsimp only
  split
  · split
    · simp
    · simp
  · split
    · simp
    · rfl

theorem controls_frameTick (c : Chip) : c.frameTick.controls = c.controls := by
  have hevents := controls_clockEvents c.clockLinear c.clockLinear.sequencer.events
  rw [controls_clockLinear] at hevents
  rw [← hevents]
  rfl

theorem controls_clock (c : Chip) : c.clock.controls = c.controls := by
  unfold clock
  split
  · simp [controls]
  · simp [controls]

/-- What the five-step mode clocks at once is nothing that is set. -/
theorem controls_writeFrameCounter (c : Chip) (value : UInt8) :
    (c.writeFrameCounter value).controls = { c.controls with frame := .decode value } := by
  have hset : { c with sequencer := c.sequencer.write value }.controls
      = { c.controls with frame := .decode value } := rfl
  unfold writeFrameCounter
  dsimp only
  split
  · simp [hset]
  · exact hset

theorem controls_dispatch (c : Chip) (register : Register) (value : UInt8) :
    (c.dispatch register value).controls = c.controls.write register value := by
  cases register with
  | pulseControl id =>
    exact c.controls_mapPulse id (·.writeControl value)
      (fun p => { p with duty := value.toNat / 64, envelope := .decode value })
      fun p => p.controls_writeControl value
  | pulseSweep id =>
    exact c.controls_mapPulse id (·.writeSweep value) (fun p => { p with sweep := .decode value })
      fun p => p.controls_writeSweep value
  | pulseTimerLow id => exact c.controls_mapPulse_of_same id fun p => p.controls_writeTimerLow value
  | pulseTimerHigh id =>
    exact c.controls_mapPulse_of_same id fun p => p.controls_writeTimerHigh value
  | triangleLinear => simp [dispatch, controls, ChipControls.write, Triangle.controls_writeLinear]
  | triangleTimerLow =>
    simp [dispatch, controls, ChipControls.write, Triangle.controls_writeTimerLow]
  | triangleTimerHigh =>
    simp [dispatch, controls, ChipControls.write, Triangle.controls_writeTimerHigh]
  | noiseControl => simp [dispatch, controls, ChipControls.write, Noise.controls_writeControl]
  | noisePeriod => simp [dispatch, controls, ChipControls.write, Noise.controls_writePeriod]
  | noiseLength => simp [dispatch, controls, ChipControls.write, Noise.controls_writeLength]
  | dmcControl => simp [dispatch, controls, ChipControls.write, Dmc.controls_writeControl]
  | dmcDirectLoad => rfl
  | dmcSampleAddress => simp [dispatch, controls, ChipControls.write, Dmc.controls_writeAddress]
  | dmcSampleLength => simp [dispatch, controls, ChipControls.write, Dmc.controls_writeLength]
  | status => exact c.controls_writeStatus value
  | frameCounter => exact c.controls_writeFrameCounter value
  | unused offset => rfl
  | expansion => rfl

theorem controls_write (c : Chip) (register : Register) (value : UInt8) :
    (c.write register value).controls = c.controls.write register value := by
  have hnoted : ({ c with registerWrites := c.registerWrites + 1 }.remember register value).controls
      = c.controls := by
    unfold remember
    split
    · rfl
    · rfl
  rw [write, controls_dispatch, hnoted]

/-- What is set is set of the voices and the sequencer. -/
theorem controls_congr {c d : Chip} (h : ∀ v : Voice, v.view c = v.view d) :
    c.controls = d.controls := by
  have hstate : ∀ v : Voice, v.state c = v.state d := fun v => (Voice.view_eq_iff.mp (h v)).1
  have hsequencer : c.sequencer = d.sequencer := (Voice.view_eq_iff.mp (h .triangle)).2.1
  have hpulse1 : c.pulse1 = d.pulse1 := hstate (.pulse .one)
  have hpulse2 : c.pulse2 = d.pulse2 := hstate (.pulse .two)
  have htriangle : c.triangle = d.triangle := hstate .triangle
  have hnoise : c.noise = d.noise := hstate .noise
  have hdmc : c.dmc = d.dmc := hstate .dmc
  rw [controls, controls, hpulse1, hpulse2, htriangle, hnoise, hdmc, hsequencer]

theorem controls_powerUp (sampleRate : UInt32) : (powerUp sampleRate).controls = {} := by
  have htriangle : Triangle.controls {} = {} := by decide
  show { ({} : ChipControls) with triangle := Triangle.controls {} } = {}
  rw [htriangle]

theorem controls_reset (c : Chip) : c.reset.controls = {} := controls_powerUp c.sampleRate

/-- Writes and resets change what is set, and nothing else does. -/
theorem controls_run (c : Chip) (op : ChipOp) :
    (op.run c).controls = op.controlled c.controls := by
  cases op with
  | write register value => exact c.controls_write register value
  | load data offset =>
    simp [ChipOp.run, ChipOp.controlled, loadSamples, controls, Dmc.controls_loadSamples]
  | frameTick => exact c.controls_frameTick
  | clock => exact c.controls_clock
  | sample options =>
    -- To every voice, a sample is its clocks.
    have hclocks := controls_congr fun v => v.view_nextSample (c := c) options
    exact hclocks.trans (after_clocks controls_clock c c.sampleClocks)
  | reset => exact c.controls_reset
  | setRate sampleRate => rfl

/-! ### The shadow file -/

/-- A write is remembered at its offset. -/
theorem register?_write (c : Chip) (register : Register) (value : UInt8) {i : Nat}
    (hi : i < registerFileSize) :
    (c.write register value).register? i
      = if register.offset.toNat = i then some value else c.register? i := by
  have hwrite : (c.write register value).shadow
      = ({ c with registerWrites := c.registerWrites + 1 }.remember register value).shadow :=
    congrArg Board.shadow (board_dispatch _ register value)
  unfold register?
  rw [hwrite]
  unfold remember Register.shadowIndex?
  dsimp only
  by_cases hshadowed : register.offset.toNat < registerFileSize
  · rw [if_pos hshadowed]
    simp [Vector.getElem?_setIfInBounds, hshadowed]
  · -- An offset past the file is none of those in the file.
    have hne : ¬ register.offset.toNat = i := by omega
    rw [if_neg hshadowed, if_neg hne]

theorem register?_reset (c : Chip) {i : Nat} (hi : i < registerFileSize) :
    c.reset.register? i = some 0 := by
  unfold register? reset
  rw [Vector.getElem?_replicate, if_pos hi]

/-- Nothing else changes the file. -/
theorem register?_of_other (c : Chip) {op : ChipOp} (hop : op.setsRegisters = false) (i : Nat) :
    (op.run c).register? i = c.register? i := by
  have hshadow : (op.run c).shadow = c.shadow := by
    cases op with
    | write register value => nomatch hop
    | load data offset => rfl
    | frameTick => exact congrArg Board.shadow c.board_frameTick
    | clock => exact congrArg Board.shadow c.board_clock
    | sample options => exact congrArg Board.shadow (c.board_nextSample options)
    | reset => nomatch hop
    | setRate sampleRate => rfl
  rw [register?, register?, hshadow]

/-- Nor does it change what is set. -/
theorem controls_of_other (c : Chip) {op : ChipOp} (hop : op.setsRegisters = false) :
    (op.run c).controls = c.controls := by
  rw [controls_run]
  cases op with
  | write register value => nomatch hop
  | reset => nomatch hop
  | _ => rfl

end Chip

/-! ### Histories -/

namespace Past

/-- The value last written since the last reset, to any of the registers that `kind` picks. -/
def lastWrite (kind : Register → Bool) : List ChipOp → Option UInt8
  | [] => none
  | .write register value :: past => if kind register then some value else lastWrite kind past
  | .reset :: _ => none
  | _ :: past => lastWrite kind past

/-- The value last written to a register since the last reset. -/
def written (register : Register) (past : List ChipOp) : Option UInt8 :=
  lastWrite (fun other => other = register) past

/-- The value last written at an offset since the last reset. -/
def writtenAt (offset : Nat) (past : List ChipOp) : Option UInt8 :=
  lastWrite (fun register => register.offset.toNat = offset) past

/-- A control as its register was last written, or as it is at power-up. -/
def control {α : Type} (past : List ChipOp) (register : Register) (initial : α)
    (decode : UInt8 → α) : α :=
  (written register past).elim initial decode

/-- What is set of a pulse voice. -/
def pulseControls (past : List ChipOp) (id : PulseId) : PulseControls :=
  { enabled := control past .status false (·.toNat.testBit (Voice.pulse id).statusBit)
    duty := control past (.pulseControl id) 0 (·.toNat / 64)
    envelope := control past (.pulseControl id) {} .decode
    sweep := control past (.pulseSweep id) {} .decode }

/-- What is set of the triangle voice. -/
def triangleControls (past : List ChipOp) : TriangleControls :=
  { enabled := control past .status false (·.toNat.testBit 2)
    control := control past .triangleLinear false (·.toNat.testBit 7)
    reload := control past .triangleLinear 0 (·.toNat % 128)
    timerLow := control past .triangleTimerLow 0 (·.toNat)
    timerHigh := control past .triangleTimerHigh 0 (·.toNat % 8) }

/-- What is set of the noise voice. -/
def noiseControls (past : List ChipOp) : NoiseControls :=
  { enabled := control past .status false (·.toNat.testBit 3)
    envelope := control past .noiseControl {} .decode
    shortMode := control past .noisePeriod false (·.toNat.testBit 7)
    periodIndex := control past .noisePeriod 0 (·.toNat % 16) }

/-- What is set of the delta voice. -/
def dmcControls (past : List ChipOp) : DmcControls :=
  { enabled := control past .status false (·.toNat.testBit 4)
    irqEnabled := control past .dmcControl false (·.toNat.testBit 7)
    loop := control past .dmcControl false (·.toNat.testBit 6)
    rateIndex := control past .dmcControl 0 (·.toNat % 16)
    startAddress := control past .dmcSampleAddress 0 (0xC000 + 64 * ·.toNat)
    configuredLength := control past .dmcSampleLength 0 (16 * ·.toNat + 1) }

/-- What is set of a chip: every control as its register was last written. -/
def controls (past : List ChipOp) : ChipControls :=
  { pulse1 := pulseControls past .one
    pulse2 := pulseControls past .two
    triangle := triangleControls past
    noise := noiseControls past
    dmc := dmcControls past
    frame := control past .frameCounter {} .decode }

variable {past : List ChipOp}

theorem lastWrite_of_other (kind : Register → Bool) {op : ChipOp}
    (hop : op.setsRegisters = false) : lastWrite kind (op :: past) = lastWrite kind past := by
  cases op with
  | write register value => nomatch hop
  | reset => nomatch hop
  | _ => rfl

/-- Histories with the same last writes set the same. -/
theorem controls_congr {past more : List ChipOp}
    (h : ∀ register, written register past = written register more) :
    controls past = controls more := by
  simp [controls, pulseControls, triangleControls, noiseControls, dmcControls, control, h]

theorem controls_write (register : Register) (value : UInt8) :
    controls (.write register value :: past) = (controls past).write register value := by
  -- Each register is compared with those that the controls belong to.
  cases register with
  | pulseControl id | pulseSweep id | pulseTimerLow id | pulseTimerHigh id => cases id <;> rfl
  | _ => rfl

end Past

namespace Chip

/-- Shadow file and controls are what a history has written. -/
structure Remembers (c : Chip) (past : List ChipOp) : Prop where
  shadow : ∀ i < registerFileSize, c.register? i = some ((Past.writtenAt i past).getD 0)
  controls : c.controls = Past.controls past

variable {c : Chip} {past : List ChipOp}

theorem remembers_powerUp (sampleRate : UInt32) : (powerUp sampleRate).Remembers [] where
  shadow := fun _ hi => register?_reset (powerUp sampleRate) hi
  controls := controls_powerUp sampleRate

theorem Remembers.run (h : c.Remembers past) (op : ChipOp) : (op.run c).Remembers (op :: past) := by
  cases hop : op.setsRegisters with
  | false =>
    refine ⟨?_, ?_⟩
    · intro i hi
      rw [c.register?_of_other hop, h.shadow i hi, Past.writtenAt, Past.writtenAt,
        Past.lastWrite_of_other _ hop]
    · rw [c.controls_of_other hop, h.controls]
      exact Past.controls_congr fun _ => (Past.lastWrite_of_other _ hop).symm
  | true =>
    cases op with
    | write register value =>
      refine ⟨?_, ?_⟩
      · intro i hi
        show (c.write register value).register? i = _
        rw [c.register?_write register value hi, h.shadow i hi]
        by_cases hsame : register.offset.toNat = i
        · simp [Past.writtenAt, Past.lastWrite, hsame]
        · simp [Past.writtenAt, Past.lastWrite, hsame]
      · rw [controls_run, h.controls]
        exact (Past.controls_write register value).symm
    | reset => exact ⟨fun i hi => c.register?_reset hi, c.controls_reset⟩
    | _ => nomatch hop

theorem Remembers.after (h : c.Remembers past) (ops : List ChipOp) :
    (c.after ops).Remembers (ops.reverse ++ past) := by
  induction ops generalizing c past with
  | nil => exact h
  | cons op rest ih =>
    rw [List.reverse_cons, List.append_assoc]
    exact ih (h.run op)

end Chip

/-! ### Registers and offsets -/

namespace Register

/-- The chip answers to the register at some offset. -/
def Answered (register : Register) : Prop := ∃ address, decode? address = some register

/-- All registers but the expansion register are reached through their own offsets. -/
theorem offset_of_decode? {address : UInt8} {register : Register}
    (h : decode? address = some register) : register = .expansion ∨ register.offset = address := by
  -- The expansion register is reached through another offset than its own, and an unused one
  -- carries the offset with it. In each of the other cases the offset is a number.
  unfold decode? at h
  split at h
  case h_21 => exact Or.inl (Option.some.inj h).symm
  case h_22 =>
    split at h
    · obtain rfl := Option.some.inj h
      exact Or.inr rfl
    · nomatch h
  all_goals
    next heq =>
      obtain rfl := Option.some.inj h
      exact Or.inr (UInt8.toNat_inj.mp heq.symm)

/-- The chip answers to nothing at the offset of the expansion register. -/
theorem decode?_offset {register : Register} (h : register.Answered)
    (hne : register ≠ .expansion) : decode? register.offset = some register := by
  obtain ⟨address, hdecode⟩ := h
  rcases offset_of_decode? hdecode with hexpansion | hoffset
  · exact absurd hexpansion hne
  · rw [hoffset, hdecode]

theorem eq_of_offset {r r' : Register} (h : r.Answered) (h' : r'.Answered)
    (hoffset : r.offset = r'.offset) : r = r' := by
  by_cases hr : r = .expansion
  · by_cases hr' : r' = .expansion
    · rw [hr, hr']
    · have hdecode := decode?_offset h' hr'
      rw [← hoffset, hr] at hdecode
      nomatch hdecode
  · have hdecode := decode?_offset h hr
    by_cases hr' : r' = .expansion
    · rw [hoffset, hr'] at hdecode
      nomatch hdecode
    · rw [hoffset, decode?_offset h' hr'] at hdecode
      exact (Option.some.inj hdecode).symm

end Register

/-- A write is to a register that the chip answers to. -/
def ChipOp.Answered : ChipOp → Prop
  | .write register _ => register.Answered
  | _ => True

namespace Past

/-- If all registers are ones that the chip answers to, what is last written to one of them is
what is last written at its offset. -/
theorem written_eq_writtenAt (register : Register) {past : List ChipOp}
    (hpast : ∀ op ∈ past, op.Answered) (h : register.Answered) :
    written register past = writtenAt register.offset.toNat past := by
  induction past with
  | nil => rfl
  | cons op rest ih =>
    obtain ⟨hop, hrest⟩ := List.forall_mem_cons.mp hpast
    have hsame := ih hrest
    -- A write counts for the register exactly if it counts for the offset.
    unfold written writtenAt at hsame ⊢
    cases op with
    | write other value =>
      simp only [lastWrite, decide_eq_true_eq, hsame]
      by_cases heq : other = register
      · rw [if_pos heq, if_pos (by rw [heq])]
      · have hne : other.offset.toNat ≠ register.offset.toNat := by
          intro hoffset
          exact heq (Register.eq_of_offset hop h (UInt8.toNat_inj.mp hoffset))
        rw [if_neg heq, if_neg hne]
    | reset => rfl
    | _ => exact hsame

theorem control_zero {past : List ChipOp} (register : Register) {f : Nat → Nat} (hf : f 0 = 0) :
    control past register 0 (fun value => f value.toNat)
      = f ((written register past).getD 0).toNat := by
  unfold control
  cases written register past with
  | none => exact hf.symm
  | some value => rfl

end Past

namespace Chip

/-- The shadow file and the voices agree. After every run from power-up, the file holds at each
offset the value last written there since the last reset, or zero. Every control decodes the
value last written to its register since then, or has its value at power-up, and nothing but
writes and resets changes any.

If the chip answers to the registers that are written, the value last written to a register is
the one that the file holds for it, and the triangle's period is what the file holds for its two
timer registers. -/
theorem registers_agree (sampleRate : UInt32) (ops : List ChipOp) :
    let c := (powerUp sampleRate).after ops
    let past := ops.reverse
    (∀ i < 0x18, c.register? i = some ((Past.writtenAt i past).getD 0)) ∧
    c.controls = Past.controls past ∧
    (∀ op : ChipOp, op.setsRegisters = false → (op.run c).controls = c.controls) ∧
    ((∀ op ∈ ops, op.Answered) →
      (∀ (register : Register) (value : UInt8), register.Answered →
        Past.written register past = some value → register.offset.toNat < 0x18 →
        c.register? register.offset.toNat = some value) ∧
      ∃ low high, c.register? 0x0A = some low ∧ c.register? 0x0B = some high ∧
        c.triangle.period = low.toNat + 256 * (high.toNat % 8)) := by
  intro c past
  have hc : c.Remembers past := by
    have hafter := (remembers_powerUp sampleRate).after ops
    rwa [List.append_nil] at hafter
  refine ⟨hc.shadow, hc.controls, fun op hop => c.controls_of_other hop, ?_⟩
  intro hops
  have hpast : ∀ op ∈ past, op.Answered := fun op hop => hops op (List.mem_reverse.mp hop)
  refine ⟨?_, ?_⟩
  · intro register value hregister hwritten hshadowed
    rw [hc.shadow _ hshadowed, ← Past.written_eq_writtenAt register hpast hregister, hwritten]
    rfl
  · have hlow := Past.written_eq_writtenAt .triangleTimerLow hpast ⟨0x0A, rfl⟩
    have hhigh := Past.written_eq_writtenAt .triangleTimerHigh hpast ⟨0x0B, rfl⟩
    refine ⟨_, _, hc.shadow 0x0A (by decide), hc.shadow 0x0B (by decide), ?_⟩
    have htriangle : c.triangle.controls = Past.triangleControls past :=
      congrArg ChipControls.triangle hc.controls
    have hbounded : c.triangle.Bounded := (bounded_after sampleRate ops).triangle
    rw [Triangle.period_eq_of_bounded hbounded, htriangle]
    -- A register without a write reads as zero, which decodes to what is set at power-up.
    show Past.control past .triangleTimerLow 0 (fun value => value.toNat)
        + 256 * Past.control past .triangleTimerHigh 0 (fun value => value.toNat % 8) = _
    rw [Past.control_zero .triangleTimerLow (f := fun n => n) rfl,
      Past.control_zero .triangleTimerHigh (f := fun n => n % 8) rfl, hlow, hhigh]
    rfl

/-- The triangle's timer is written, ticked and clocked. What came before the reset is gone. -/
theorem triangle_timer_agrees :
    let ops : List ChipOp :=
      [.write .triangleTimerLow 0xFF, .reset, .write .triangleTimerHigh 0x0A, .frameTick,
        .write .dmcSampleAddress 0x10, .clock]
    let c := (powerUp 44100).after ops
    c.register? 0x0A = some 0 ∧ c.register? 0x12 = some 0x10 ∧ c.triangle.period = 0x200 ∧
      c.controls.dmc.startAddress = 0xC400 ∧ c.clock.controls = c.controls := by
  intro ops c
  obtain ⟨hshadow, hcontrols, hkeeps, hagrees⟩ := registers_agree 44100 ops
  have hops : ∀ op ∈ ops, op.Answered := by
    simp only [ops, List.forall_mem_cons, ChipOp.Answered]
    exact ⟨⟨0x0A, rfl⟩, trivial, ⟨0x0B, rfl⟩, trivial, ⟨0x12, rfl⟩, trivial, nofun⟩
  obtain ⟨hwritten, low, high, hlow, hhigh, hperiod⟩ := hagrees hops
  have hzero : c.register? 0x0A = some 0 := hshadow 0x0A (by decide)
  have hten : c.register? 0x0B = some 0x0A := hshadow 0x0B (by decide)
  obtain rfl := Option.some.inj (hlow.symm.trans hzero)
  obtain rfl := Option.some.inj (hhigh.symm.trans hten)
  refine ⟨hzero, ?_, hperiod, ?_, hkeeps .clock rfl⟩
  · exact hwritten .dmcSampleAddress 0x10 ⟨0x12, rfl⟩ rfl (by decide)
  · exact congrArg (fun k => k.dmc.startAddress) hcontrols

end Chip

end Chiptune
