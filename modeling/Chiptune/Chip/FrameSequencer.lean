import Chiptune.Byte
/-!
# Frame sequencer

Divides the 240 Hz frame tick into envelope clocks and half-frames, over four steps or over
five. A tick's work is read off before the step moves on.
-/

set_option autoImplicit false

namespace Chiptune

/-- What a frame tick clocks besides the triangle's linear counter. -/
structure FrameEvents where
  envelope : Bool := false
  halfFrame : Bool := false
deriving DecidableEq, Repr

/-- Position and mode of the sequencer. -/
structure FrameSequencer where
  step : Nat := 0
  fiveStep : Bool := false
  irqInhibit : Bool := true
deriving DecidableEq, Repr

namespace FrameSequencer

/-- Steps in a sequence. -/
def steps (s : FrameSequencer) : Nat := if s.fiveStep then 5 else 4

/-- Work of each step of the four-step sequence. -/
def fourStepEvents : Array FrameEvents :=
  #[{}, ⟨true, true⟩, ⟨true, false⟩, ⟨true, true⟩]

/-- Work of each step of the five-step sequence. -/
def fiveStepEvents : Array FrameEvents :=
  #[{}, ⟨true, true⟩, ⟨true, false⟩, {}, ⟨true, true⟩]

/-- Work of the tick at the current step. -/
def events (s : FrameSequencer) : FrameEvents :=
  (if s.fiveStep then fiveStepEvents else fourStepEvents).getD (s.step % s.steps) {}

/-- Moves to the next step. -/
def advance (s : FrameSequencer) : FrameSequencer := { s with step := (s.step + 1) % s.steps }

/-- Frame counter register: bit 7 selects five steps, bit 6 inhibits the interrupt; the
sequence starts over. -/
def write (_s : FrameSequencer) (value : UInt8) : FrameSequencer :=
  { step := 0, fiveStep := Byte.bit value 7, irqInhibit := Byte.bit value 6 }

end FrameSequencer

end Chiptune
