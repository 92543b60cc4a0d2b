import Chiptune.Chip.Envelope
import Chiptune.Chip.LengthCounter
/-!
# Noise voice

A 15-bit feedback shift register clocked by a timer of sixteen periods. Its low bit gates
the envelope's volume. The short mode takes its feedback from bit 6 in place of bit 1.
-/

set_option autoImplicit false

namespace Chiptune

/-- State of the noise voice. -/
structure Noise where
  enabled : Bool := false
  length : LengthCounter := {}
  envelope : Envelope := {}
  shortMode : Bool := false
  periodIndex : Nat := 0
  counter : Nat := 0
  shiftRegister : Nat := 1
deriving DecidableEq, Repr

namespace Noise

/-- Control register: bit 5 holds the length counter, the rest is the envelope's. -/
def writeControl (n : Noise) (value : UInt8) : Noise :=
  { n with
    length := n.length.setHalt (Byte.bit value 5)
    envelope := n.envelope.writeControl value }

/-- Period register: bit 7 selects the short mode, the low four bits the period. -/
def writePeriod (n : Noise) (value : UInt8) : Noise :=
  { n with shortMode := Byte.bit value 7, periodIndex := Byte.field value 0 4 }

/-- Length register: loads the length counter and restarts the envelope. -/
def writeLength (n : Noise) (value : UInt8) : Noise :=
  { n with length := n.length.load (Byte.field value 3 5), envelope := n.envelope.restart }

/-- Switches the voice on or off; off clears the length counter. -/
def setEnabled (n : Noise) (enabled : Bool) : Noise :=
  { n with enabled := enabled, length := n.length.gate enabled }

/-- The next value of a shift register: the exclusive or of its low bit and the bit at `tap`
enters at the top. -/
def shiftWith (tap register : Nat) : Nat :=
  register / 2 + (register ^^^ register >>> tap) % 2 * 0x4000

/-- The bit that the feedback takes besides bit 0. -/
def tap (n : Noise) : Nat := if n.shortMode then 6 else 1

/-- One step of the shift register. -/
def shift (n : Noise) : Noise :=
  { n with shiftRegister := shiftWith n.tap n.shiftRegister }

/-- One timer clock. The table counts processor clocks and the voice runs at half their
rate, so the count goes down by two; at two and below it expires and takes on the period. -/
def clockTimer (n : Noise) : Noise :=
  if n.counter ≤ 2 then
    { n with counter := n.counter + noisePeriodOf n.periodIndex - 2 }.shift
  else
    { n with counter := n.counter - 2 }

/-- One envelope clock. -/
def clockEnvelope (n : Noise) : Noise := { n with envelope := n.envelope.clock }

/-- One half-frame of the length counter. -/
def clockLength (n : Noise) : Noise := { n with length := n.length.clock }

/-- Four-bit level. -/
def output (n : Noise) : Nat :=
  if !n.enabled || !n.length.running || n.shiftRegister % 2 == 1 then 0 else n.envelope.volume

end Noise

end Chiptune
