import Chiptune.Chip.Envelope
import Chiptune.Chip.LengthCounter
import Chiptune.Chip.Sweep
/-!
# Pulse voice

A timer steps backwards through one of four duty waveforms; the envelope sets the level; the
length counter and the sweep unit silence the voice. Whether the period is too low and
whether the sweep mutes is settled at each change of the period or of the sweep, not at each
reading.

The timer expires at counts of one and below: the clock takes the count to zero, and
`period + 1` is added.
-/

set_option autoImplicit false

namespace Chiptune

/-- State of a pulse voice. -/
structure Pulse where
  enabled : Bool := false
  duty : Nat := 0
  dutyPosition : Nat := 0
  period : Nat := 0
  counter : Nat := 1
  length : LengthCounter := {}
  envelope : Envelope := {}
  sweep : Sweep
  /-- The period was below the audible range when it was last changed. -/
  periodTooLow : Bool := false
  /-- The sweep muted when the period or the sweep was last changed. -/
  sweepMuting : Bool := false
deriving DecidableEq, Repr

namespace Pulse

/-- Power-up state; the two voices differ in how their sweep negates. -/
def powerUp (onesComplement : Bool) : Pulse := { sweep := { onesComplement := onesComplement } }

/-- Settles the two cached silencing conditions. -/
def settleMuting (p : Pulse) : Pulse :=
  { p with
    periodTooLow := p.period < minPulsePeriod
    sweepMuting := p.sweep.mutes p.period }

/-- Control register: the top two bits are the duty, bit 5 holds the length counter, the
rest is the envelope's. -/
def writeControl (p : Pulse) (value : UInt8) : Pulse :=
  { p with
    duty := Byte.field value 6 2
    length := p.length.setHalt (Byte.bit value 5)
    envelope := p.envelope.writeControl value }

/-- Sweep register. -/
def writeSweep (p : Pulse) (value : UInt8) : Pulse :=
  { p with sweep := p.sweep.write value }.settleMuting

/-- Low eight bits of the period. -/
def writeTimerLow (p : Pulse) (value : UInt8) : Pulse :=
  { p with period := p.period / 256 % 8 * 256 + value.toNat }.settleMuting

/-- High three bits of the period and the length index. The phase starts over and the
envelope restarts; a timer that has not run out keeps its count. -/
def writeTimerHigh (p : Pulse) (value : UInt8) : Pulse :=
  let p := { p with period := p.period % 256 + Byte.field value 0 3 * 256 }.settleMuting
  { p with
    dutyPosition := 0
    counter := if p.counter = 0 then p.period + 1 else p.counter
    length := p.length.load (Byte.field value 3 5)
    envelope := p.envelope.restart }

/-- Switches the voice on or off; off clears the length counter. -/
def setEnabled (p : Pulse) (enabled : Bool) : Pulse :=
  { p with enabled := enabled, length := p.length.gate enabled }

/-- One timer clock. -/
def clockTimer (p : Pulse) : Pulse :=
  if p.counter ≤ 1 then
    { p with
      counter := p.counter + p.period
      dutyPosition := if 0 < p.period then (p.dutyPosition + 7) % 8 else p.dutyPosition }
  else
    { p with counter := p.counter - 1 }

/-- One envelope clock. -/
def clockEnvelope (p : Pulse) : Pulse := { p with envelope := p.envelope.clock }

/-- One half-frame of the length counter. -/
def clockLength (p : Pulse) : Pulse := { p with length := p.length.clock }

/-- The period the sweep is heading for. -/
def sweepTarget (p : Pulse) : Nat := p.sweep.target p.period

/-- One half-frame of the sweep. An expiry changes the period when the sweep is enabled,
shifts, does not mute and the new period is in range. -/
def clockSweep (p : Pulse) : Pulse :=
  let (expired, sweep) := p.sweep.clockDivider
  let p := { p with sweep := sweep }
  if expired && sweep.enabled && 0 < sweep.shift && !p.sweepMuting then
    let target := p.sweepTarget
    if minPulsePeriod ≤ target ∧ target ≤ maxTimerPeriod then
      { p with period := target }.settleMuting
    else
      p
  else
    p

/-- The duty bit after all silencing conditions. -/
def waveform (p : Pulse) : Nat :=
  if !p.enabled || !p.length.running || p.periodTooLow || p.sweepMuting || p.period == 0 then
    0
  else
    dutyBit p.duty p.dutyPosition

/-- Four-bit level. -/
def output (p : Pulse) : Nat :=
  if p.waveform = 0 then 0 else p.envelope.volume

end Pulse

end Chiptune
