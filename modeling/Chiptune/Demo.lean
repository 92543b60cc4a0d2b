import Chiptune.Engine.Basic
import Chiptune.Single
/-!
# Demo tune

A C major arpeggio over two octaves with a fifth above it, a bass, noise hits and a looping
delta sample, played by register writes alone; and a triangle wave for the DAC.
-/

set_option autoImplicit false

namespace Chiptune

/-- Why a demo cannot be played. -/
inductive DemoFault where
  /-- There is no register after the last offset. -/
  | registerOverflow
  /-- The length is more than a clock can hold. -/
  | tooLong
deriving DecidableEq, Repr

/-- Wording of the fault. -/
def DemoFault.message : DemoFault → String
  | registerOverflow => "attempt to add with overflow"
  | tooLong => "cannot convert float seconds to Duration: value is either too big or NaN"

namespace Demo

/-- Notes of the melody in hertz. -/
def melodyHz : Array Float32 :=
  #[261.63, 329.63, 392.00, 523.25, 659.25, 523.25, 392.00, 329.63]

/-- Notes of the bass in hertz, one per round of the melody. -/
def bassHz : Array Float32 := #[65.41, 98.00]

/-- A square wave for the delta voice, four bytes up and four down. -/
def deltaSamples : Array UInt8 :=
  (Array.range 64).map fun i => if i % 8 < 4 then 0xFF else 0x00

/-- Timer period of a voice that takes `steps` steps per oscillation. -/
def timerPeriod (frequency steps : Float32) : Nat :=
  min (min (Single.roundNat (cpuClockHz / (steps * frequency))) 0xFFFF - 1) 0x7FF

/-- The pair of writes that sets a timer period: the low byte, then the high bits with a
length index of one. -/
def timerWrites (lowRegister : UInt8) (period : Nat) : List (UInt8 × UInt8) :=
  [(lowRegister, UInt8.ofNat period),
    (lowRegister + 1, UInt8.ofNat (period / 256 % 8) ||| 0x08)]

/-- Sets the timer whose low register is given. The last offset has no register after it:
its low byte is written and the rest fails. -/
def writeTimer (e : Engine) (lowRegister : UInt8) (period : Nat) :
    Except DemoFault (Outcome Engine Unit) :=
  if lowRegister = 255 then
    .error .registerOverflow
  else
    .ok ((e.writeAll (timerWrites lowRegister period)).map fun _ => ())

/-- Writes that switch all voices on. -/
def voiceWrites : List (UInt8 × UInt8) :=
  [(0x17, 0x40), (0x15, 0x1F), (0x00, 0xB6), (0x01, 0x00), (0x04, 0x74), (0x05, 0x00),
    (0x08, 0xFF), (0x10, 0x4F), (0x11, 0x40), (0x12, 0x00), (0x13, 0x03)]

/-- Writes of one step: melody, its fifth, bass, and every fourth step a noise hit. -/
def stepWrites (step : Nat) : List (UInt8 × UInt8) :=
  let note := melodyHz.getD (step % melodyHz.size) 0.0
  let bass := bassHz.getD (step / melodyHz.size % bassHz.size) 0.0
  timerWrites 0x02 (timerPeriod note 16.0)
    ++ timerWrites 0x06 (timerPeriod (note * 1.5) 16.0)
    ++ timerWrites 0x0A (timerPeriod bass 32.0)
    ++ (if step % 4 = 0 then [(0x0C, 0x02), (0x0E, 0x04), (0x0F, 0x10)] else [])

/-- Switches all voices on. -/
def startVoices (e : Engine) : Outcome Engine Unit :=
  (e.writeAll voiceWrites).map fun _ => ()

/-- Plays one step of the tune. -/
def playStep (e : Engine) (step : Nat) : Outcome Engine Unit :=
  (e.writeAll (stepWrites step)).map fun _ => ()

/-- Seconds from which on a length is more than a clock can hold, `2 ^ 64`. -/
def lengthLimit : Float32 := 18446744073709551616.0

/-- Starts a demo of the given length. What is negative or not a number counts as zero; what
is too long fails once the voices are on. The steps that follow are paced by a clock. -/
def start (e : Engine) (seconds : Float32) : Except DemoFault (Outcome Engine Unit) :=
  if lengthLimit ≤ seconds then .error .tooLong else .ok (startVoices e)

/-- One sample of an unsigned eight-bit triangle wave. -/
def dacSample (index : UInt64) (frequency : Float32) (sampleRate : UInt32) : UInt8 :=
  let phase := Single.fract (index.toFloat32 * frequency / sampleRate.toFloat32)
  let level := if phase < 0.5 then phase * 2.0 else 2.0 - phase * 2.0
  (64.0 + level * 127.0).toUInt8

end Demo

end Chiptune
