import Chiptune.Byte
import Chiptune.Chip.LengthCounter
/-!
# Triangle voice

A timer steps through a 32-step waveform while both the linear and the length counter run.
The bit that controls the linear counter also holds the length counter. The output keeps
its last level when a counter runs out.
-/

set_option autoImplicit false

namespace Chiptune

/-- Smallest triangle period that is heard. -/
def minTrianglePeriod : Nat := 2

/-- State of the triangle voice. -/
structure Triangle where
  enabled : Bool := false
  linearReload : Nat := 0
  /-- The linear counter is reloaded at its next clock. -/
  reloadDue : Bool := false
  linear : Nat := 0
  period : Nat := 0
  counter : Nat := 0
  /-- The period was below the audible range when it was last written. -/
  periodTooLow : Bool := false
  length : LengthCounter := {}
  step : Nat := 0
deriving DecidableEq, Repr

namespace Triangle

/-- The control bit, which is the hold of the length counter. -/
def control (t : Triangle) : Bool := t.length.halt

/-- Linear register: bit 7 is the control bit, the rest the reload value. -/
def writeLinear (t : Triangle) (value : UInt8) : Triangle :=
  { t with
    length := t.length.setHalt (Byte.bit value 7)
    linearReload := Byte.field value 0 7 }

/-- Changes the period. -/
def setPeriod (t : Triangle) (period : Nat) : Triangle :=
  { t with period := period, periodTooLow := period < minTrianglePeriod }

/-- Low eight bits of the period. -/
def writeTimerLow (t : Triangle) (value : UInt8) : Triangle :=
  t.setPeriod (t.period / 256 % 8 * 256 + value.toNat)

/-- High three bits of the period and the length index; the linear counter is to be
reloaded. -/
def writeTimerHigh (t : Triangle) (value : UInt8) : Triangle :=
  let t := t.setPeriod (t.period % 256 + Byte.field value 0 3 * 256)
  { t with length := t.length.load (Byte.field value 3 5), reloadDue := true }

/-- Switches the voice on or off; off clears the length counter. -/
def setEnabled (t : Triangle) (enabled : Bool) : Triangle :=
  { t with enabled := enabled, length := t.length.gate enabled }

/-- One timer clock. A count of one or below expires and takes on the period. -/
def clockTimer (t : Triangle) : Triangle :=
  if t.counter ≤ 1 then
    { t with
      counter := t.counter + t.period
      step := if t.length.running && 0 < t.linear then (t.step + 1) % 32 else t.step }
  else
    { t with counter := t.counter - 1 }

/-- One clock of the linear counter. -/
def clockLinear (t : Triangle) : Triangle :=
  { t with
    linear := if t.reloadDue then t.linearReload else t.linear - 1
    reloadDue := t.reloadDue && t.control }

/-- One half-frame of the length counter. -/
def clockLength (t : Triangle) : Triangle := { t with length := t.length.clock }

/-- Four-bit level. -/
def output (t : Triangle) : Nat :=
  if !t.enabled || t.periodTooLow then 0 else triangleLevel t.step

end Triangle

end Chiptune
