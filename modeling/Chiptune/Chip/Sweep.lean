import Chiptune.Byte
/-!
# Sweep unit

A pulse voice's sweep shifts the timer period by a fraction of itself each time its divider
expires. The unit also mutes the voice while the period it is heading for is out of range.
-/

set_option autoImplicit false

namespace Chiptune

/-- Largest timer period, eleven bits. -/
def maxTimerPeriod : Nat := 0x7FF

/-- Smallest pulse period that is heard. -/
def minPulsePeriod : Nat := 8

/-- State of a sweep unit. -/
structure Sweep where
  /-- A negated change is one larger, as in ones' complement. -/
  onesComplement : Bool
  enabled : Bool := false
  period : Nat := 0
  negate : Bool := false
  shift : Nat := 0
  /-- The divider is reloaded at the next clock. -/
  reload : Bool := false
  divider : Nat := 0
deriving DecidableEq, Repr

namespace Sweep

/-- Sweep register: bit 7 enables, bits 4 to 6 are the period, bit 3 negates, the low three
bits are the shift. -/
def write (s : Sweep) (value : UInt8) : Sweep :=
  { s with
    enabled := Byte.bit value 7
    period := Byte.field value 4 3
    negate := Byte.bit value 3
    shift := Byte.field value 0 3
    reload := true }

/-- The period that the next change would set. A negated change stops at zero. -/
def target (s : Sweep) (period : Nat) : Nat :=
  let delta := period >>> s.shift
  if s.negate then
    period - (if s.onesComplement then delta + 1 else delta)
  else
    period + delta

/-- Whether the unit silences a voice of the given period. -/
def mutes (s : Sweep) (period : Nat) : Bool :=
  0 < s.shift && maxTimerPeriod < s.target period

/-- One clock of the divider, and whether it expired. -/
def clockDivider (s : Sweep) : Bool × Sweep :=
  if s.reload then
    (false, { s with divider := s.period, reload := false })
  else if 0 < s.divider then
    (false, { s with divider := s.divider - 1 })
  else
    (true, { s with divider := s.period })

end Sweep

end Chiptune
