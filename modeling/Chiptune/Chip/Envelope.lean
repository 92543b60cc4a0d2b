import Chiptune.Byte
/-!
# Envelope generator

The volume source of the pulse and noise voices: either a constant or a decay from fifteen
to zero, one step per `period + 1` clocks, that starts over when looping. The period is the
constant volume as well.
-/

set_option autoImplicit false

namespace Chiptune

/-- State of an envelope generator. -/
structure Envelope where
  /-- The period is the volume, the decay is not heard. -/
  constantVolume : Bool := true
  loop : Bool := false
  /-- A restart is due at the next clock. -/
  start : Bool := false
  period : Nat := 0
  divider : Nat := 0
  decay : Nat := 0
deriving DecidableEq, Repr

namespace Envelope

/-- Control register: bit 5 loops, bit 4 fixes the volume, the low four bits are the period. -/
def writeControl (e : Envelope) (value : UInt8) : Envelope :=
  { e with
    loop := Byte.bit value 5
    constantVolume := Byte.bit value 4
    period := Byte.field value 0 4 }

/-- Asks for a restart at the next clock. -/
def restart (e : Envelope) : Envelope := { e with start := true }

/-- One clock. A due restart takes the whole clock; otherwise the divider counts down and
its expiry moves the decay. -/
def clock (e : Envelope) : Envelope :=
  if e.start then
    { e with start := false, decay := 15, divider := e.period }
  else if 0 < e.divider then
    { e with divider := e.divider - 1 }
  else
    { e with
      divider := e.period
      decay := if 0 < e.decay then e.decay - 1 else if e.loop then 15 else 0 }

/-- Four-bit volume. -/
def volume (e : Envelope) : Nat :=
  if e.constantVolume then e.period % 16 else e.decay % 16

end Envelope

end Chiptune
