/-!
# The register block

The chip answers to an eight-bit offset from `$4000`. `Register.decode?` gives offsets a
meaning, `Register.offset` takes the meaning back to an offset, and the first twenty-four
offsets are shadowed so that the last value written can be read again.
-/

set_option autoImplicit false

namespace Chiptune

/-- The two pulse voices. -/
inductive PulseId where
  | one
  | two
deriving DecidableEq, Repr

/-- Number of shadowed offsets, `$4000` to `$4017`. -/
def registerFileSize : Nat := 24

/-- What an offset into the register block stands for. -/
inductive Register where
  | pulseControl (id : PulseId)
  | pulseSweep (id : PulseId)
  | pulseTimerLow (id : PulseId)
  | pulseTimerHigh (id : PulseId)
  | triangleLinear
  | triangleTimerLow
  | triangleTimerHigh
  | noiseControl
  | noisePeriod
  | noiseLength
  | dmcControl
  | dmcDirectLoad
  | dmcSampleAddress
  | dmcSampleLength
  | status
  | frameCounter
  /-- A slot inside the block with no effect, known by its offset. -/
  | unused (offset : UInt8)
  /-- The expansion register at `$4023`, reached only through offset `$3F`. -/
  | expansion
deriving DecidableEq, Repr

namespace PulseId

/-- Offset of the first of the voice's four registers. -/
def base : PulseId → UInt8
  | one => 0x00
  | two => 0x04

/-- The voice's name in a register's description. -/
def name : PulseId → String
  | one => "One"
  | two => "Two"

end PulseId

namespace Register

/-- The register at an offset, none for offsets the chip does not answer to. -/
def decode? (address : UInt8) : Option Register :=
  match address.toNat with
  | 0x00 => some (pulseControl .one)
  | 0x01 => some (pulseSweep .one)
  | 0x02 => some (pulseTimerLow .one)
  | 0x03 => some (pulseTimerHigh .one)
  | 0x04 => some (pulseControl .two)
  | 0x05 => some (pulseSweep .two)
  | 0x06 => some (pulseTimerLow .two)
  | 0x07 => some (pulseTimerHigh .two)
  | 0x08 => some triangleLinear
  | 0x0A => some triangleTimerLow
  | 0x0B => some triangleTimerHigh
  | 0x0C => some noiseControl
  | 0x0E => some noisePeriod
  | 0x0F => some noiseLength
  | 0x10 => some dmcControl
  | 0x11 => some dmcDirectLoad
  | 0x12 => some dmcSampleAddress
  | 0x13 => some dmcSampleLength
  | 0x15 => some status
  | 0x17 => some frameCounter
  | 0x3F => some expansion
  | n => if n < 0x20 then some (unused address) else none

/-- Offset from `$4000`. -/
def offset : Register → UInt8
  | pulseControl id => id.base
  | pulseSweep id => id.base + 1
  | pulseTimerLow id => id.base + 2
  | pulseTimerHigh id => id.base + 3
  | triangleLinear => 0x08
  | triangleTimerLow => 0x0A
  | triangleTimerHigh => 0x0B
  | noiseControl => 0x0C
  | noisePeriod => 0x0E
  | noiseLength => 0x0F
  | dmcControl => 0x10
  | dmcDirectLoad => 0x11
  | dmcSampleAddress => 0x12
  | dmcSampleLength => 0x13
  | status => 0x15
  | frameCounter => 0x17
  | unused offset => offset
  | expansion => 0x23

/-- Place in the shadow file, for the registers that have one. -/
def shadowIndex? (register : Register) : Option Nat :=
  let offset := register.offset.toNat
  if offset < registerFileSize then some offset else none

/-- Name used in reports. -/
def name : Register → String
  | pulseControl .one => "Pulse1_Duty"
  | pulseSweep .one => "Pulse1_Sweep"
  | pulseTimerLow .one => "Pulse1_TimerLo"
  | pulseTimerHigh .one => "Pulse1_Length"
  | pulseControl .two => "Pulse2_Duty"
  | pulseSweep .two => "Pulse2_Sweep"
  | pulseTimerLow .two => "Pulse2_TimerLo"
  | pulseTimerHigh .two => "Pulse2_Length"
  | triangleLinear => "Triangle_Linear"
  | triangleTimerLow => "Triangle_TimerLo"
  | triangleTimerHigh => "Triangle_Length"
  | noiseControl => "Noise_Envelope"
  | noisePeriod => "Noise_Period"
  | noiseLength => "Noise_Length"
  | dmcControl => "DMC_Flags"
  | dmcDirectLoad => "DMC_DirectLoad"
  | dmcSampleAddress => "DMC_SampleAddr"
  | dmcSampleLength => "DMC_SampleLen"
  | status => "Status"
  | frameCounter => "FrameCounter"
  | unused _ => "Unused"
  | expansion => "Expansion"

/-- Structural description: the kind of register, with its voice or offset in brackets. -/
def describe : Register → String
  | pulseControl id => "PulseControl(" ++ id.name ++ ")"
  | pulseSweep id => "PulseSweep(" ++ id.name ++ ")"
  | pulseTimerLow id => "PulseTimerLow(" ++ id.name ++ ")"
  | pulseTimerHigh id => "PulseTimerHigh(" ++ id.name ++ ")"
  | triangleLinear => "TriangleLinear"
  | triangleTimerLow => "TriangleTimerLow"
  | triangleTimerHigh => "TriangleTimerHigh"
  | noiseControl => "NoiseControl"
  | noisePeriod => "NoisePeriod"
  | noiseLength => "NoiseLength"
  | dmcControl => "DmcControl"
  | dmcDirectLoad => "DmcDirectLoad"
  | dmcSampleAddress => "DmcSampleAddress"
  | dmcSampleLength => "DmcSampleLength"
  | status => "Status"
  | frameCounter => "FrameCounter"
  | unused offset => "Unused(" ++ toString offset.toNat ++ ")"
  | expansion => "Expansion"

end Register

end Chiptune
